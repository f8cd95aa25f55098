import RespWire.Cluster.Node
import RespWire.Proofs.Cluster.Slot

/-!
# Topologies by entries

A topology is read entry by entry, each as if it had its first three fields alone, and the first
entry that cannot be read is why the whole is refused. What is behind the fields of an entry, or
behind the port of its owner, changes nothing.
-/

namespace RespWire.Cluster.Node

variable {n : Node} {start stop owner entry : Resp} {fields entries : List Resp} {e : ReplyError}

/-! ### Ports -/

/-- Is a number that of a port? -/
def IsPort (value : Int64) : Prop := 0 ≤ value.toInt ∧ value.toInt ≤ 65535

lemma isPort_iff {value : Int64} :
    IsPort value ↔ ∃ port : UInt16, (port.toNat : Int) = value.toInt := by
  constructor
  · rintro ⟨hlow, hhigh⟩
    have hlt : value.toInt.toNat < UInt16.size := Nat.lt_succ_of_le (Int.toNat_le.2 hhigh)
    exact ⟨UInt16.ofNat value.toInt.toNat,
      by rw [UInt16.toNat_ofNat_of_lt' hlt, Int.toNat_of_nonneg hlow]⟩
  · rintro ⟨port, hport⟩
    rw [IsPort, ← hport]
    exact ⟨Int.natCast_nonneg _, Int.ofNat_le.2 (Nat.le_of_lt_succ port.toNat_lt)⟩

lemma portOfInteger_eq_ok_iff {value : Int64} {port : UInt16} :
    portOfInteger value = .ok port ↔ (port.toNat : Int) = value.toInt := by
  have hlt : port.toNat < UInt16.size := port.toNat_lt
  rw [portOfInteger]
  split_ifs with h
  · rw [Except.ok.injEq, ← UInt16.toNat_inj, UInt16.toNat_ofNat_of_lt' (by omega)]
    omega
  · refine ⟨nofun, fun hport => absurd ?_ h⟩
    omega

lemma portOfInteger_eq_error_iff {value : Int64} :
    portOfInteger value = .error e ↔ ¬ IsPort value ∧ .outOfRange .port value = e := by
  have hsize : UInt16.size = 65535 + 1 := rfl
  rw [portOfInteger, hsize]
  split_ifs with h
  · simp only [IsPort, false_iff]
    omega
  · simp only [Except.error.injEq, IsPort, iff_and_self]
    omega

/-! ### Owners -/

/-- Why an owner is not a host and a port with anything behind them. -/
inductive OwnerFault : Resp → ReplyError → Prop where
  | kind {owner : Resp} (h : owner.kind ≠ .array) :
    OwnerFault owner (.unexpected .array owner.kind)
  | short {items : List Resp} (h : items.length < 2) :
    OwnerFault (.array items) (.wrongCount 2 items.length)
  | host {host : Resp} (port : Resp) (more : List Resp) (h : host.bytes? = none) :
    OwnerFault (.array (host :: port :: more)) (.unexpected .string host.kind)
  | portKind {host port : Resp} {data : Bytes} (more : List Resp) (hhost : host.bytes? = some data)
      (h : port.kind ≠ .integer) :
    OwnerFault (.array (host :: port :: more)) (.unexpected .integer port.kind)
  | portRange {host : Resp} {port : Int64} {data : Bytes} (more : List Resp)
      (hhost : host.bytes? = some data) (h : ¬ IsPort port) :
    OwnerFault (.array (host :: .integer port :: more)) (.outOfRange .port port)

lemma ofOwner_pair (slots : SlotSpan) (host port : Resp) (more : List Resp) :
    ofOwner slots (.array (host :: port :: more)) = do
      let host ← host.requireText
      let port ← portOfInteger (← port.requireInteger)
      return ⟨host, port, slots⟩ := rfl

lemma ofOwner_short {slots : SlotSpan} {items : List Resp} (h : items.length < 2) :
    ofOwner slots (.array items) = .error (.wrongCount 2 items.length) := by
  match items with
  | [] | [_] => rfl
  | _ :: _ :: _ => exact absurd h (by simp)

lemma ofOwner_eq_ok_iff {slots : SlotSpan} : ofOwner slots owner = .ok n ↔
    ∃ host port more data, owner = .array (host :: .integer port :: more) ∧
      host.bytes? = some data ∧ Utf8.decodeLossy data = n.host ∧
      (n.port.toNat : Int) = port.toInt ∧ slots = n.slots := by
  constructor
  · intro h
    match owner with
    | .array (host :: port :: more) =>
      simp only [ofOwner_pair, bind_eq_ok_iff, Resp.requireText_eq_ok_iff,
        Resp.requireInteger_eq_ok_iff, portOfInteger_eq_ok_iff] at h
      obtain ⟨text, ⟨data, hhost, htext⟩, value, rfl, port, hport, h⟩ := h
      cases h
      exact ⟨host, value, more, data, rfl, hhost, htext, hport, rfl⟩
    | .array [] | .array [_] => cases h
    | .simple _ | .error _ | .integer _ | .bulk _ | .null => cases h
  · rintro ⟨host, port, more, data, rfl, hhost, htext, hport, rfl⟩
    simp only [ofOwner_pair, bind_eq_ok_iff, Resp.requireText_eq_ok_iff,
      Resp.requireInteger_eq_ok_iff, portOfInteger_eq_ok_iff]
    exact ⟨n.host, ⟨data, hhost, htext⟩, port, rfl, n.port, hport, rfl⟩

lemma ofOwner_eq_error_iff {slots : SlotSpan} :
    ofOwner slots owner = .error e ↔ OwnerFault owner e := by
  constructor
  · intro h
    match owner with
    | .array (host :: port :: more) =>
      simp only [ofOwner_pair, bind_eq_error_iff, Resp.requireText_eq_ok_iff,
        Resp.requireText_eq_error_iff, Resp.requireInteger_eq_ok_iff,
        Resp.requireInteger_eq_error_iff, portOfInteger_eq_error_iff] at h
      obtain ⟨h, rfl⟩ | ⟨text, ⟨data, hhost, -⟩, ⟨h, rfl⟩ | ⟨value, rfl, ⟨h, rfl⟩ | ⟨_, _, h⟩⟩⟩ := h
      · exact .host port more h
      · exact .portKind more hhost h
      · exact .portRange more hhost h
      · cases h
    | .array [] | .array [_] =>
      cases h
      exact .short (by simp)
    | .simple _ | .error _ | .integer _ | .bulk _ | .null =>
      cases h
      exact .kind (by simp [Resp.kind])
  · intro h
    cases h with
    | kind h => simp [ofOwner, bind_eq_error_iff, h]
    | short h => exact ofOwner_short h
    | host port more h =>
      simp only [ofOwner_pair, bind_eq_error_iff, Resp.requireText_eq_error_iff]
      exact .inl ⟨h, trivial⟩
    | portKind more hhost h =>
      simp only [ofOwner_pair, bind_eq_error_iff, Resp.requireText_eq_ok_iff,
        Resp.requireInteger_eq_error_iff]
      exact .inr ⟨_, ⟨_, hhost, rfl⟩, .inl ⟨h, trivial⟩⟩
    | portRange more hhost h =>
      simp only [ofOwner_pair, bind_eq_error_iff, Resp.requireText_eq_ok_iff,
        Resp.requireInteger_eq_ok_iff, portOfInteger_eq_error_iff]
      exact .inr ⟨_, ⟨_, hhost, rfl⟩, .inr ⟨_, rfl, .inl ⟨h, rfl⟩⟩⟩

/-! ### Fields -/

/-- Do fields describe a node? They start with the first and the last of its slots, and with an
owner that starts with its host and its port. -/
inductive Describes : List Resp → Node → Prop where
  | mk {n : Node} {start stop port : Int64} {host : Resp} {data : Bytes} (more rest : List Resp)
      (hstart : (n.slots.start.val : Int) = start.toInt)
      (hstop : (n.slots.stop.val : Int) = stop.toInt) (hhost : host.bytes? = some data)
      (htext : Utf8.decodeLossy data = n.host) (hport : (n.port.toNat : Int) = port.toInt) :
      Describes
        (.integer start :: .integer stop :: .array (host :: .integer port :: more) :: rest) n

/-- Why the fields of an entry are refused. The slots are not looked at before both are integers,
nor the owner before both are slots in order. -/
inductive Fault : Resp → Resp → Resp → ReplyError → Prop where
  | start {start : Resp} (stop owner : Resp) (h : start.kind ≠ .integer) :
    Fault start stop owner (.unexpected .integer start.kind)
  | stop (start : Int64) {stop : Resp} (owner : Resp) (h : stop.kind ≠ .integer) :
    Fault (.integer start) stop owner (.unexpected .integer stop.kind)
  | slots {start stop : Int64} (owner : Resp) {e : ReplyError} (h : SlotSpan.Fault start stop e) :
    Fault (.integer start) (.integer stop) owner e
  | owner {start stop : Int64} {owner : Resp} {e : ReplyError} (hstart : IsSlot start)
      (hstop : IsSlot stop) (hle : start.toInt ≤ stop.toInt) (h : OwnerFault owner e) :
    Fault (.integer start) (.integer stop) owner e

lemma ofFields_eq_ok_iff :
    ofFields start stop owner = .ok n ↔ Describes [start, stop, owner] n := by
  simp only [ofFields, bind_eq_ok_iff, Resp.requireInteger_eq_ok_iff, SlotSpan.ofBounds_eq_ok_iff,
    ofOwner_eq_ok_iff]
  constructor
  · rintro ⟨start, rfl, stop, rfl, _, ⟨hstart, hstop⟩, host, port, more, data, rfl, hhost, htext,
      hport, rfl⟩
    exact .mk more [] hstart hstop hhost htext hport
  · intro h
    obtain ⟨more, -, hstart, hstop, hhost, htext, hport⟩ := h
    exact ⟨_, rfl, _, rfl, n.slots, ⟨hstart, hstop⟩, _, _, more, _, rfl, hhost, htext, hport, rfl⟩

lemma ofFields_eq_error_iff : ofFields start stop owner = .error e ↔ Fault start stop owner e := by
  simp only [ofFields, bind_eq_error_iff, Resp.requireInteger_eq_ok_iff,
    Resp.requireInteger_eq_error_iff, SlotSpan.ofBounds_eq_ok_iff, SlotSpan.ofBounds_eq_error_iff,
    ofOwner_eq_error_iff]
  constructor
  · rintro (⟨h, rfl⟩ | ⟨start, rfl, ⟨h, rfl⟩ | ⟨stop, rfl, h | ⟨slots, ⟨hstart, hstop⟩, h⟩⟩⟩)
    · exact .start stop owner h
    · exact .stop start owner h
    · exact .slots owner h
    · have hle : slots.start.val ≤ slots.stop.val := slots.start_le_stop
      exact .owner (isSlot_iff.2 ⟨_, hstart⟩) (isSlot_iff.2 ⟨_, hstop⟩) (by omega) h
  · intro h
    cases h with
    | start _ _ h => exact .inl ⟨h, rfl⟩
    | stop _ _ h => exact .inr ⟨_, rfl, .inl ⟨h, rfl⟩⟩
    | slots _ h => exact .inr ⟨_, rfl, .inr ⟨_, rfl, .inl h⟩⟩
    | owner hstart hstop hle h =>
      obtain ⟨slots, hslots⟩ := SlotSpan.exists_ofBounds_iff.2 ⟨hstart.1, hle, hstop.2⟩
      exact .inr ⟨_, rfl, .inr ⟨_, rfl, .inr ⟨slots, SlotSpan.ofBounds_eq_ok_iff.1 hslots, h⟩⟩⟩

/-- A node is described by any first and last slot in order, host and port. -/
lemma exists_describes_iff : (∃ n, Describes fields n) ↔
    ∃ (start stop port : Int64) (host : Resp) (data : Bytes) (more rest : List Resp),
      fields = .integer start :: .integer stop :: .array (host :: .integer port :: more) :: rest ∧
      (0 ≤ start.toInt ∧ start.toInt ≤ stop.toInt ∧ stop.toInt < slotCount) ∧
      host.bytes? = some data ∧ IsPort port := by
  constructor
  · rintro ⟨n, h⟩
    obtain ⟨more, rest, hstart, hstop, hhost, -, hport⟩ := h
    have hslots := SlotSpan.exists_ofBounds_iff.1
      ⟨n.slots, SlotSpan.ofBounds_eq_ok_iff.2 ⟨hstart, hstop⟩⟩
    exact ⟨_, _, _, _, _, more, rest, rfl, hslots, hhost, isPort_iff.2 ⟨n.port, hport⟩⟩
  · rintro ⟨start, stop, port, host, data, more, rest, rfl, hslots, hhost, hport⟩
    obtain ⟨slots, hbounds⟩ := SlotSpan.exists_ofBounds_iff.2 hslots
    obtain ⟨hstart, hstop⟩ := SlotSpan.ofBounds_eq_ok_iff.1 hbounds
    obtain ⟨port', hport'⟩ := isPort_iff.1 hport
    exact ⟨⟨_, port', slots⟩, .mk more rest hstart hstop hhost rfl hport'⟩

/-! ### Entries -/

lemma ofReply_triple (start stop owner : Resp) :
    ofReply (.array [start, stop, owner]) = ofFields start stop owner := rfl

/-- A single entry is accepted exactly if it has three fields that describe a node. -/
lemma ofReply_eq_ok_iff : ofReply entry = .ok n ↔
    ∃ start stop owner, entry = .array [start, stop, owner] ∧ Describes [start, stop, owner] n := by
  constructor
  · intro h
    match entry with
    | .array [start, stop, owner] =>
      rw [ofReply_triple, ofFields_eq_ok_iff] at h
      exact ⟨start, stop, owner, rfl, h⟩
    | .array [] | .array [_] | .array [_, _] | .array (_ :: _ :: _ :: _ :: _) => cases h
    | .simple _ | .error _ | .integer _ | .bulk _ | .null => cases h
  · rintro ⟨start, stop, owner, rfl, h⟩
    rwa [ofReply_triple, ofFields_eq_ok_iff]

lemma ofEntry_cons (start stop owner : Resp) (rest : List Resp) :
    ofEntry (.array (start :: stop :: owner :: rest)) = ofFields start stop owner := rfl

/-- An entry of a topology is read as if it had its first three fields alone. -/
lemma ofEntry_eq_ofReply_take (h : 3 ≤ fields.length) :
    ofEntry (.array fields) = ofReply (.array (fields.take 3)) := by
  match fields with
  | start :: stop :: owner :: _ => rfl
  | [] | [_] | [_, _] => exact absurd h (by simp)

/-- Is an entry of a topology an array whose first three fields are a node on their own? -/
def Accepts (entry : Resp) (n : Node) : Prop :=
  ∃ fields, entry = .array fields ∧ 3 ≤ fields.length ∧ ofReply (.array (fields.take 3)) = .ok n

/-- Why an entry of a topology is refused. -/
inductive Refuses : Resp → ReplyError → Prop where
  | kind {entry : Resp} (h : entry.kind ≠ .array) : Refuses entry (.unexpected .array entry.kind)
  | short {fields : List Resp} (h : fields.length < 3) :
    Refuses (.array fields) (.wrongCount 3 fields.length)
  | fields {fields : List Resp} {e : ReplyError} (h : 3 ≤ fields.length)
      (he : ofReply (.array (fields.take 3)) = .error e) : Refuses (.array fields) e

lemma ofEntry_eq_error_of_length_lt (h : fields.length < 3) :
    ofEntry (.array fields) = .error (.wrongCount 3 fields.length) := by
  match fields with
  | [] | [_] | [_, _] => rfl
  | _ :: _ :: _ :: _ => exact absurd h (by simp)

lemma ofEntry_eq_ok_iff : ofEntry entry = .ok n ↔ Accepts entry n := by
  constructor
  · intro h
    cases entry with
    | array fields =>
      rcases Nat.lt_or_ge fields.length 3 with hlen | hlen
      · rw [ofEntry_eq_error_of_length_lt hlen] at h
        cases h
      · rw [ofEntry_eq_ofReply_take hlen] at h
        exact ⟨fields, rfl, hlen, h⟩
    | _ => cases h
  · rintro ⟨fields, rfl, hlen, h⟩
    rwa [ofEntry_eq_ofReply_take hlen]

lemma ofEntry_eq_error_iff : ofEntry entry = .error e ↔ Refuses entry e := by
  constructor
  · intro h
    cases entry with
    | array fields =>
      rcases Nat.lt_or_ge fields.length 3 with hlen | hlen
      · rw [ofEntry_eq_error_of_length_lt hlen] at h
        cases h
        exact .short hlen
      · rw [ofEntry_eq_ofReply_take hlen] at h
        exact .fields hlen h
    | _ =>
      cases h
      exact .kind (by simp [Resp.kind])
  · intro h
    cases h with
    | kind h => simp [ofEntry, bind_eq_error_iff, h]
    | short h => exact ofEntry_eq_error_of_length_lt h
    | fields h he => rwa [ofEntry_eq_ofReply_take h]

lemma describes_cons_iff (rest : List Resp) :
    Describes (start :: stop :: owner :: rest) n ↔ Describes [start, stop, owner] n := by
  constructor
  · intro h
    obtain ⟨more, -, hstart, hstop, hhost, htext, hport⟩ := h
    exact .mk more [] hstart hstop hhost htext hport
  · intro h
    obtain ⟨more, -, hstart, hstop, hhost, htext, hport⟩ := h
    exact .mk more rest hstart hstop hhost htext hport

/-- An entry is accepted exactly if its fields describe a node, and as that node. -/
lemma accepts_iff : Accepts entry n ↔ ∃ fields, entry = .array fields ∧ Describes fields n := by
  constructor
  · rintro ⟨fields, rfl, hlen, h⟩
    rw [← ofEntry_eq_ofReply_take hlen] at h
    match fields with
    | start :: stop :: owner :: rest =>
      rw [ofEntry_cons, ofFields_eq_ok_iff] at h
      exact ⟨_, rfl, (describes_cons_iff rest).2 h⟩
    | [] | [_] | [_, _] => exact absurd hlen (by simp)
  · rintro ⟨fields, rfl, h⟩
    rw [← ofEntry_eq_ok_iff]
    cases h with
    | mk more rest hstart hstop hhost htext hport =>
      rw [ofEntry_cons, ofFields_eq_ok_iff]
      exact .mk more [] hstart hstop hhost htext hport

lemma ofEntry_append (h : 3 ≤ fields.length) (more : List Resp) :
    ofEntry (.array (fields ++ more)) = ofEntry (.array fields) := by
  have hmore : 3 ≤ (fields ++ more).length := by
    rw [List.length_append]
    omega
  rw [ofEntry_eq_ofReply_take hmore, ofEntry_eq_ofReply_take h, List.take_append_of_le_length h]

lemma ofOwner_append {items : List Resp} (h : 2 ≤ items.length) (slots : SlotSpan)
    (more : List Resp) : ofOwner slots (.array (items ++ more)) = ofOwner slots (.array items) := by
  match items with
  | host :: port :: rest => rfl
  | [] | [_] => exact absurd h (by simp)

lemma ofEntry_append_owner {items : List Resp} (h : 2 ≤ items.length) (start stop : Resp)
    (more rest : List Resp) :
    ofEntry (.array (start :: stop :: .array (items ++ more) :: rest)) =
      ofEntry (.array (start :: stop :: .array items :: rest)) := by
  simp only [ofEntry_cons, ofFields, ofOwner_append h]

/-! ### Topologies -/

lemma listOfReply_array (entries : List Resp) :
    listOfReply (.array entries) = entries.mapM ofEntry := rfl

lemma listOfReply_congr {entry' : Resp} (h : ofEntry entry = ofEntry entry')
    (before after : List Resp) :
    listOfReply (.array (before ++ entry :: after)) =
      listOfReply (.array (before ++ entry' :: after)) := by
  simp only [listOfReply_array, List.mapM_append, List.mapM_cons, h]

lemma exists_describes_of_ofReply (h : ofReply entry = .ok n) :
    ∃ fields, entry = .array fields ∧ Describes fields n := by
  obtain ⟨start, stop, owner, rfl, hn⟩ := ofReply_eq_ok_iff.1 h
  exact ⟨_, rfl, hn⟩

/-- Every node of a topology is described by the fields of an entry. -/
lemma exists_describes_of_listOfReply {reply : Resp} {nodes : List Node}
    (h : listOfReply reply = .ok nodes) (hn : n ∈ nodes) :
    ∃ entries fields, reply = .array entries ∧ .array fields ∈ entries ∧ Describes fields n := by
  cases reply with
  | null =>
    cases h
    cases hn
  | array entries =>
    rw [listOfReply_array] at h
    obtain ⟨entry, hentry, hread⟩ := exists_of_mem_of_mapM h hn
    obtain ⟨fields, rfl, hfields⟩ := accepts_iff.1 (ofEntry_eq_ok_iff.1 hread)
    exact ⟨entries, fields, rfl, hentry, hfields⟩
  | _ => cases h

/-- A topology is read entry by entry, each by the reader of single entries on its first three
fields, and is refused for the first entry that is. Further fields of an entry or of its owner are
not looked at. -/
theorem topology_read_by_entries :
    listOfReply .null = .ok [] ∧
    (∀ reply : Resp, reply.kind ≠ .null → reply.kind ≠ .array →
      listOfReply reply = .error (.unexpected .array reply.kind)) ∧
    (∀ entries nodes, listOfReply (.array entries) = .ok nodes ↔
      List.Forall₂ Accepts entries nodes) ∧
    (∀ entries e, listOfReply (.array entries) = .error e ↔ ∃ before entry after,
      entries = before ++ entry :: after ∧ (∀ x ∈ before, ∃ n, Accepts x n) ∧ Refuses entry e) ∧
    (∀ entry n, Accepts entry n ↔ ∃ fields, entry = .array fields ∧ Describes fields n) ∧
    (∀ fields, (∃ n, Describes fields n) ↔
      ∃ (start stop port : Int64) (host : Resp) (data : Bytes) (more rest : List Resp),
        fields = .integer start :: .integer stop :: .array (host :: .integer port :: more) :: rest ∧
        (0 ≤ start.toInt ∧ start.toInt ≤ stop.toInt ∧ stop.toInt < slotCount) ∧
        host.bytes? = some data ∧ 0 ≤ port.toInt ∧ port.toInt ≤ 65535) ∧
    (∀ start stop owner e,
      ofReply (.array [start, stop, owner]) = .error e ↔ Fault start stop owner e) ∧
    (∀ before fields more after, 3 ≤ fields.length →
      listOfReply (.array (before ++ .array (fields ++ more) :: after)) =
        listOfReply (.array (before ++ .array fields :: after))) ∧
    ∀ before start stop items more rest after, 2 ≤ items.length →
      listOfReply (.array (before ++ .array (start :: stop :: .array (items ++ more) :: rest) ::
        after)) =
      listOfReply (.array (before ++ .array (start :: stop :: .array items :: rest) :: after)) := by
  refine ⟨rfl, fun reply hnull harray => ?_, fun entries nodes => ?_, fun entries e => ?_,
    fun entry n => accepts_iff, fun fields => exists_describes_iff,
    fun start stop owner e => by rw [ofReply_triple, ofFields_eq_error_iff],
    fun before fields more after h => ?_,
    fun before start stop items more rest after h => ?_⟩
  · cases reply with
    | null => exact absurd rfl hnull
    | array => exact absurd rfl harray
    | _ => rfl
  · simp only [listOfReply_array, mapM_eq_ok_iff, ofEntry_eq_ok_iff]
  · simp only [listOfReply_array, mapM_eq_error_iff, ofEntry_eq_ok_iff, ofEntry_eq_error_iff]
  · exact listOfReply_congr (ofEntry_append h more) before after
  · exact listOfReply_congr (ofEntry_append_owner h start stop more rest) before after

/-- A node with slots up to 5460. -/
def master : Node := ⟨"10.0.0.1", 7000, ⟨⟨0, by decide⟩, ⟨5460, by decide⟩, by decide⟩⟩

def masterOwner : List Resp := [.bulk (Utf8.encode "10.0.0.1"), .integer 7000]

def masterFields : List Resp := [.integer 0, .integer 5460, .array masterOwner]

/-- The owner of a replica of the node. -/
def replica : Resp := .array [.bulk (Utf8.encode "10.0.0.2"), .integer 7001]

/-- The replica is not looked at, nor what is behind an entry that is too short. -/
theorem topology_read_by_entries_replica :
    listOfReply (.integer 3) = .error (.unexpected .array .integer) ∧
    Describes masterFields master ∧
    listOfReply (.array [.array (masterFields ++ [replica])]) =
      listOfReply (.array [.array masterFields]) ∧
    listOfReply (.array [.array [.integer 0, .integer 5460, .array (masterOwner ++ [.null])]]) =
      listOfReply (.array [.array masterFields]) ∧
    listOfReply (.array [.array masterFields]) = .ok [master] ∧
    listOfReply (.array [.array (masterFields ++ [replica]), .array [.integer 0], .null]) =
      .error (.wrongCount 3 1) := by
  obtain ⟨-, hkind, hnodes, hfirst, haccepts, -, -, hfields, howner⟩ := topology_read_by_entries
  have hmaster : Describes masterFields master :=
    .mk [] [] (by decide) (by decide) rfl (by decide) (by decide)
  have haccepted : Accepts (.array (masterFields ++ [replica])) master :=
    (haccepts _ _).2 ⟨_, rfl, .mk [] [replica] (by decide) (by decide) rfl (by decide) (by decide)⟩
  refine ⟨hkind _ nofun nofun, hmaster, hfields [] masterFields [replica] [] (by decide),
    howner [] (.integer 0) (.integer 5460) masterOwner [.null] [] [] (by decide), ?_, ?_⟩
  · exact (hnodes _ _).2 (.cons ((haccepts _ _).2 ⟨_, rfl, hmaster⟩) .nil)
  · refine (hfirst _ _).2 ⟨[.array (masterFields ++ [replica])], .array [.integer 0], [.null], rfl,
      ?_, .short (by decide)⟩
    intro x hx
    rw [List.mem_singleton.1 hx]
    exact ⟨master, haccepted⟩

end RespWire.Cluster.Node
