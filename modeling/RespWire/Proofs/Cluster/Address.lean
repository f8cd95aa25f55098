import RespWire.Proofs.Cluster.Topology
import RespWire.Proofs.Number.Numeral

/-!
# Addresses of nodes

A host may be any text, also one with colons in it, but the numeral of a port has none. So the last
colon of an address is the one between host and port, and different pairs of them have different
addresses.
-/

namespace RespWire

variable {sep : Char} {cs before after : List Char}

/-! ### Cuts at the last separator -/

/-- Cuts characters at the last separator among them, which belongs to neither part. -/
def cutAtLast? (sep : Char) : List Char → Option (List Char × List Char)
  | [] => none
  | c :: cs =>
    match cutAtLast? sep cs with
    | some (before, after) => some (c :: before, after)
    | none => if c = sep then some ([], cs) else none

/-- A cut at a separator behind which there is none. -/
structure IsLastCut (sep : Char) (cs before after : List Char) : Prop where
  cut : cs = before ++ sep :: after
  notMem : sep ∉ after

lemma cutAtLast?_eq_none_iff : cutAtLast? sep cs = none ↔ sep ∉ cs := by
  induction cs with
  | nil => simp [cutAtLast?]
  | cons c cs ih =>
    rw [cutAtLast?, List.mem_cons, not_or, ← ih, eq_comm (a := sep)]
    cases cutAtLast? sep cs <;> simp

lemma cutAtLast?_append_cons (h : sep ∉ after) (before : List Char) :
    cutAtLast? sep (before ++ sep :: after) = some (before, after) := by
  induction before with
  | nil => rw [List.nil_append, cutAtLast?, cutAtLast?_eq_none_iff.2 h, if_pos rfl]
  | cons c before ih => rw [List.cons_append, cutAtLast?, ih]

/-- There is one cut at the last separator at most, and it is found. -/
lemma cutAtLast?_eq_some_iff :
    cutAtLast? sep cs = some (before, after) ↔ IsLastCut sep cs before after := by
  constructor
  · intro h
    induction cs generalizing before with
    | nil => cases h
    | cons c cs ih =>
      rw [cutAtLast?] at h
      split at h
      · next front rest hcut =>
        cases h
        obtain ⟨rfl, hrest⟩ := ih hcut
        exact ⟨rfl, hrest⟩
      · next hnone =>
        -- no separator is behind the first character, so it is the last one if it is one at all
        rw [Option.ite_none_right_eq_some] at h
        obtain ⟨rfl, h⟩ := h
        cases h
        exact ⟨rfl, cutAtLast?_eq_none_iff.1 hnone⟩
  · rintro ⟨rfl, hafter⟩
    exact cutAtLast?_append_cons hafter before

namespace Cluster.Node

variable {m n : Node} {fields : List Resp}

/-! ### Hosts and ports of addresses -/

lemma colon_notMem_ofNat (k : Nat) : ':' ∉ Numeral.ofNat k := by
  intro h
  exact absurd (Numeral.isDigit_of_mem_ofNat h) (by decide)

lemma toList_address (n : Node) :
    n.address.toList = n.host.toList ++ ':' :: Numeral.ofNat n.port.toNat := by
  have hcolon : ":".toList = [':'] := rfl
  simp only [address, String.toList_append, Numeral.text_natCast, String.toList_ofList, hcolon,
    List.append_assoc, List.singleton_append]

/-- The last colon of an address is the one behind the host, whatever colons the host has itself. -/
lemma isLastCut_address (n : Node) :
    IsLastCut ':' n.address.toList n.host.toList (Numeral.ofNat n.port.toNat) :=
  ⟨n.toList_address, colon_notMem_ofNat _⟩

lemma isLastCut_address_iff : IsLastCut ':' n.address.toList before after ↔
    before = n.host.toList ∧ after = Numeral.ofNat n.port.toNat := by
  constructor
  · intro h
    have hcut := cutAtLast?_eq_some_iff.2 h
    rw [cutAtLast?_eq_some_iff.2 n.isLastCut_address] at hcut
    cases hcut
    exact ⟨rfl, rfl⟩
  · rintro ⟨rfl, rfl⟩
    exact n.isLastCut_address

/-- Reads an address as a host, the last of the colons, and a port. -/
def hostAndPort? (address : String) : Option (String × UInt16) :=
  match cutAtLast? ':' address.toList with
  | some (host, port) =>
    (Numeral.uint16? (String.ofList port)).map fun port => (String.ofList host, port)
  | none => none

lemma hostAndPort?_address (n : Node) : hostAndPort? n.address = some (n.host, n.port) := by
  simp only [hostAndPort?, cutAtLast?_eq_some_iff.2 n.isLastCut_address, ← Numeral.text_natCast,
    Numeral.uint16?_text, Option.map_some, String.ofList_toList]

lemma address_eq_iff : m.address = n.address ↔ m.host = n.host ∧ m.port = n.port := by
  constructor
  · intro h
    have hread := m.hostAndPort?_address
    rw [h, n.hostAndPort?_address, Option.some.injEq, Prod.mk.injEq] at hread
    exact ⟨hread.1.symm, hread.2.symm⟩
  · rintro ⟨hhost, hport⟩
    rw [address, address, hhost, hport]

/-! ### Nodes that are read -/

/-- The fields of an entry for a node, with its host as a bulk string. -/
def toFields (n : Node) : List Resp :=
  [.integer (.ofNat n.slots.start.val), .integer (.ofNat n.slots.stop.val),
    .array [.bulk (Utf8.encode n.host), .integer (.ofNat n.port.toNat)]]

/-- No host and no port is refused. -/
lemma describes_toFields (n : Node) : Describes n.toFields n := by
  have hslot (slot : Slot) : (slot.val : Int) = (Int64.ofNat slot.val).toInt :=
    (Int64.toInt_ofNat_of_lt (slot.isLt.trans (by decide))).symm
  have hport : (n.port.toNat : Int) = (Int64.ofNat n.port.toNat).toInt :=
    (Int64.toInt_ofNat_of_lt (n.port.toNat_lt.trans (by decide))).symm
  exact .mk [] [] (hslot _) (hslot _) rfl (Utf8.decodeLossy_encode n.host) hport

lemma ofReply_toFields (n : Node) : ofReply (.array n.toFields) = .ok n :=
  ofReply_eq_ok_iff.2 ⟨_, _, _, rfl, n.describes_toFields⟩

lemma listOfReply_toFields (n : Node) : listOfReply (.array [.array n.toFields]) = .ok [n] := by
  rw [listOfReply_array, mapM_eq_ok_iff]
  exact .cons (ofEntry_eq_ok_iff.2 (accepts_iff.2 ⟨_, rfl, n.describes_toFields⟩)) .nil

/-- Do fields name an address? It is made of the text of their host and the integer of their port. -/
inductive NamesAddress : List Resp → String → Prop where
  | mk {host : Resp} {text : String} (start stop : Resp) (port : Int64) (more rest : List Resp)
      (htext : host.requireText = .ok text) :
      NamesAddress (start :: stop :: .array (host :: .integer port :: more) :: rest)
        (text ++ ":" ++ Numeral.text port.toInt)

lemma Describes.namesAddress (h : Describes fields n) : NamesAddress fields n.address := by
  obtain ⟨more, rest, -, -, hhost, htext, hport⟩ := h
  rw [address, hport]
  exact .mk _ _ _ more rest (Resp.requireText_eq_ok_iff.2 ⟨_, hhost, htext⟩)

/-- Two nodes have the same address exactly if they have the same host and the same port. Whatever
the host is, it stands before the last colon of the address, and the numeral of the port behind it.
Every node is read from some reply, on its own and in a topology, and the address of a node that is
read is made of the text and the integer in the reply. -/
theorem address_identifies_host_and_port :
    (∀ m n : Node, m.address = n.address ↔ m.host = n.host ∧ m.port = n.port) ∧
    (∀ n : Node, ∃ numeral, Numeral.IsCanonical numeral ∧ Numeral.Denotes numeral n.port.toNat ∧
      ∀ before after, IsLastCut ':' n.address.toList before after ↔
        before = n.host.toList ∧ after = numeral) ∧
    (∀ n : Node, hostAndPort? n.address = some (n.host, n.port)) ∧
    (∀ n : Node, (∃ reply, ofReply reply = .ok n) ∧ ∃ reply, listOfReply reply = .ok [n]) ∧
    (∀ reply n, ofReply reply = .ok n →
      ∃ fields, reply = .array fields ∧ NamesAddress fields n.address) ∧
    ∀ reply nodes, listOfReply reply = .ok nodes → ∀ n ∈ nodes,
      ∃ entries fields, reply = .array entries ∧ .array fields ∈ entries ∧
        NamesAddress fields n.address := by
  refine ⟨fun m n => address_eq_iff, fun n => ?_, hostAndPort?_address,
    fun n => ⟨⟨_, n.ofReply_toFields⟩, _, n.listOfReply_toFields⟩, fun reply n h => ?_,
    fun reply nodes h n hn => ?_⟩
  · exact ⟨_, Numeral.isCanonical_ofNat _, Numeral.denotes_ofNat _,
      fun before after => isLastCut_address_iff⟩
  · obtain ⟨fields, rfl, hn⟩ := exists_describes_of_ofReply h
    exact ⟨fields, rfl, hn.namesAddress⟩
  · obtain ⟨entries, fields, rfl, hentry, hfields⟩ := exists_describes_of_listOfReply h hn
    exact ⟨entries, fields, rfl, hentry, hfields.namesAddress⟩

/-- A node whose host has colons in it. -/
def loopback : Node := ⟨"::1", 7000, master.slots⟩

def loopbackFields : List Resp :=
  [.integer 0, .integer 5460, .array [.simple "::1", .integer 7000]]

/-- A node whose host ends with a colon. -/
def garbled : Node := ⟨"\ufffd:", 0, master.slots⟩

/-- The first byte of the host is no text. -/
def garbledFields : List Resp :=
  [.integer 0, .integer 5460, .array [.bulk [0xff, 0x3a], .integer 0]]

theorem address_identifies_host_and_port_colons :
    (ofReply (.array loopbackFields) = .ok loopback ∧
      ∃ fields, Resp.array loopbackFields = .array fields ∧
        NamesAddress fields loopback.address) ∧
    (listOfReply (.array [.array loopbackFields, .array garbledFields]) =
        .ok [loopback, garbled] ∧
      ∃ entries fields, Resp.array [.array loopbackFields, .array garbledFields] = .array entries ∧
        .array fields ∈ entries ∧ NamesAddress fields garbled.address) ∧
    loopback.address ≠ garbled.address ∧
    hostAndPort? loopback.address = some ("::1", 7000) ∧
    hostAndPort? garbled.address = some ("\ufffd:", 0) := by
  obtain ⟨hequal, -, hread, -, hnode, hnodes⟩ := address_identifies_host_and_port
  have hloopback : ofReply (.array loopbackFields) = .ok loopback := by decide
  have hboth : listOfReply (.array [.array loopbackFields, .array garbledFields]) =
      .ok [loopback, garbled] := by decide
  have hne : loopback.address ≠ garbled.address := by
    rw [Ne, hequal]
    decide
  exact ⟨⟨hloopback, hnode _ _ hloopback⟩,
    ⟨hboth, hnodes _ _ hboth _ (List.mem_cons_of_mem _ List.mem_cons_self)⟩, hne,
    hread loopback, hread garbled⟩

end Cluster.Node

end RespWire
