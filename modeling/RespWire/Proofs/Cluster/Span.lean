import Mathlib.Data.Finset.Card
import Mathlib.Order.Interval.Finset.Fin
import RespWire.Proofs.Cluster.Topology

/-!
# Ranges of slots as intervals

Two numbers are read as a range exactly if they are the ends of an interval of slots that is not
empty. The range then has as many slots as it says, and is told apart from others by them. So it is
for the slots of every node that is read.
-/

namespace RespWire.Cluster

variable {value start stop : Int64} {word : UInt16}

/-! ### Words -/

/-- A number cut to 16 bits. -/
def narrow (value : Int64) : UInt16 := value.toUInt64.toUInt16

/-- No slot is lost when it is cut to 16 bits. -/
lemma toNat_narrow (h : IsSlot value) : ((narrow value).toNat : Int) = value.toInt := by
  obtain ⟨hlow, hhigh⟩ := h
  have hword : value.toUInt64.toNat = value.toInt.toNat := by
    rw [Int64.toNat_toUInt64_of_le (Int64.le_iff_toInt_le.2 hlow), Int64.toNat_toInt]
  have hlt : value.toInt.toNat < 2 ^ 16 := by
    have hslots : slotCount < 2 ^ 16 := by decide
    omega
  rw [narrow, UInt64.toNat_toUInt16, hword, Nat.mod_eq_of_lt hlt, Int.toNat_of_nonneg hlow]

namespace Slot

/-- A slot as a word of 16 bits. -/
def toWord (slot : Slot) : UInt16 := UInt16.ofNat slot.val

lemma toNat_toWord (slot : Slot) : slot.toWord.toNat = slot.val :=
  UInt16.toNat_ofNat_of_lt' (slot.isLt.trans (by decide))

lemma toWord_injective : Function.Injective toWord := by
  intro a b h
  rw [Fin.ext_iff, ← toNat_toWord a, h, toNat_toWord]

end Slot

namespace SlotSpan

variable {r s : SlotSpan}

lemma contains_iff :
    r.contains word = true ↔ r.start.val ≤ word.toNat ∧ word.toNat ≤ r.stop.val := by
  simp [contains]

lemma lt_of_contains (h : r.contains word = true) : word.toNat < slotCount :=
  (contains_iff.1 h).2.trans_lt r.stop.isLt

lemma contains_start (r : SlotSpan) : r.contains r.start.toWord = true := by
  rw [contains_iff, Slot.toNat_toWord]
  exact ⟨le_rfl, r.start_le_stop⟩

lemma contains_stop (r : SlotSpan) : r.contains r.stop.toWord = true := by
  rw [contains_iff, Slot.toNat_toWord]
  exact ⟨r.start_le_stop, le_rfl⟩

/-! ### Counting -/

/-- The slots of a range, as words. -/
def members (r : SlotSpan) : Finset UInt16 := (Finset.Icc r.start r.stop).image Slot.toWord

lemma mem_members : word ∈ r.members ↔ r.contains word = true := by
  simp only [members, Finset.mem_image, Finset.mem_Icc, contains_iff]
  constructor
  · rintro ⟨slot, ⟨hstart, hstop⟩, rfl⟩
    rw [Slot.toNat_toWord]
    exact ⟨hstart, hstop⟩
  · rintro ⟨hstart, hstop⟩
    have hlt : word.toNat < slotCount := hstop.trans_lt r.stop.isLt
    exact ⟨⟨word.toNat, hlt⟩, ⟨hstart, hstop⟩, UInt16.ofNat_toNat⟩

lemma card_members (r : SlotSpan) : r.members.card = r.size := by
  have hle : r.start.val ≤ r.stop.val := r.start_le_stop
  rw [members, Finset.card_image_of_injective _ Slot.toWord_injective, Fin.card_Icc, size]
  omega

lemma size_pos (r : SlotSpan) : 1 ≤ r.size := Nat.le_add_left 1 _

lemma size_le (r : SlotSpan) : r.size ≤ slotCount := by
  have hlt : r.stop.val < slotCount := r.stop.isLt
  rw [size]
  omega

/-! ### Extension -/

/-- A range within another one begins later and ends sooner, for it has a first and a last slot. -/
lemma le_of_contains_imp (h : ∀ word, r.contains word = true → s.contains word = true) :
    s.start ≤ r.start ∧ r.stop ≤ s.stop := by
  have hstart := contains_iff.1 (h _ r.contains_start)
  have hstop := contains_iff.1 (h _ r.contains_stop)
  rw [Slot.toNat_toWord] at hstart hstop
  exact ⟨hstart.1, hstop.2⟩

lemma eq_iff_contains : r = s ↔ ∀ word, r.contains word = s.contains word := by
  constructor
  · rintro rfl word
    rfl
  · intro h
    obtain ⟨hstart, hstop⟩ := le_of_contains_imp fun word hr => (h word).symm.trans hr
    obtain ⟨hstart', hstop'⟩ := le_of_contains_imp fun word hs => (h word).trans hs
    cases r
    cases s
    simp only [mk.injEq]
    exact ⟨le_antisymm hstart' hstart, le_antisymm hstop hstop'⟩

/-! ### Numbers -/

/-- Is a range the interval between two numbers? -/
structure Covers (start stop : Int64) (r : SlotSpan) : Prop where
  start_eq : (r.start.val : Int) = start.toInt
  stop_eq : (r.stop.val : Int) = stop.toInt
  contains : ∀ word : UInt16,
    r.contains word = true ↔ start.toInt ≤ word.toNat ∧ (word.toNat : Int) ≤ stop.toInt
  slot : ∀ word : UInt16, r.contains word = true → word.toNat < 16384
  /-- The first number is not above the second one as words, so there is no borrow below. -/
  narrow_le : narrow start ≤ narrow stop
  size_eq : r.size = (narrow stop - narrow start).toNat + 1
  size_mem : 1 ≤ r.size ∧ r.size ≤ 16384
  size_eq_card : ∃ members : Finset UInt16,
    (∀ word, word ∈ members ↔ r.contains word = true) ∧ r.size = members.card

lemma covers_of_ofBounds (h : ofBounds start stop = .ok r) : Covers start stop r := by
  obtain ⟨hstart, hstop⟩ := ofBounds_eq_ok_iff.1 h
  have hnarrow := toNat_narrow (isSlot_iff.2 ⟨r.start, hstart⟩)
  have hnarrow' := toNat_narrow (isSlot_iff.2 ⟨r.stop, hstop⟩)
  have hle : r.start.val ≤ r.stop.val := r.start_le_stop
  have hwords : narrow start ≤ narrow stop := by
    rw [UInt16.le_iff_toNat_le]
    omega
  refine ⟨hstart, hstop, fun word => ?_, fun word => lt_of_contains, hwords, ?_,
    ⟨r.size_pos, r.size_le⟩, r.members, fun word => mem_members, r.card_members.symm⟩
  · rw [contains_iff]
    omega
  · rw [UInt16.toNat_sub_of_le _ _ hwords, size]
    omega

end SlotSpan

/-! ### Nodes -/

namespace Node

variable {n : Node} {nodes : List Node} {fields : List Resp} {reply : Resp}

/-- Does a node serve the slots between the first two of some fields? -/
def ServesBetween (fields : List Resp) (n : Node) : Prop :=
  ∃ start stop rest, fields = .integer start :: .integer stop :: rest ∧
    SlotSpan.ofBounds start stop = .ok n.slots ∧ ∀ word, n.serves word = n.slots.contains word

lemma servesBetween_of_describes (h : Describes fields n) : ServesBetween fields n := by
  obtain ⟨more, rest, hstart, hstop, -, -, -⟩ := h
  exact ⟨_, _, _, rfl, SlotSpan.ofBounds_eq_ok_iff.2 ⟨hstart, hstop⟩, fun _ => rfl⟩

lemma servesBetween_of_ofReply (h : ofReply reply = .ok n) :
    ∃ fields, reply = .array fields ∧ ServesBetween fields n := by
  obtain ⟨fields, rfl, hn⟩ := exists_describes_of_ofReply h
  exact ⟨fields, rfl, servesBetween_of_describes hn⟩

lemma servesBetween_of_listOfReply (h : listOfReply reply = .ok nodes) (hn : n ∈ nodes) :
    ∃ entries fields, reply = .array entries ∧ .array fields ∈ entries ∧
      ServesBetween fields n := by
  obtain ⟨entries, fields, rfl, hentry, hfields⟩ := exists_describes_of_listOfReply h hn
  exact ⟨entries, fields, rfl, hentry, servesBetween_of_describes hfields⟩

end Node

namespace SlotSpan

/-- Two numbers are read as a range exactly if they are slots in order, and refused for the first of
these that fails. A range that is read is the interval between its numbers, and counts its slots
without a borrow. Two ranges are equal exactly if they have the same slots, and the slots of nodes
are such ranges. -/
theorem ranges_are_intervals :
    (∀ start stop, (∃ r, ofBounds start stop = .ok r) ↔
      0 ≤ start.toInt ∧ start.toInt ≤ stop.toInt ∧ stop.toInt < 16384) ∧
    (∀ start stop e, ofBounds start stop = .error e ↔ Fault start stop e) ∧
    (∀ start stop r, ofBounds start stop = .ok r → Covers start stop r) ∧
    (∀ r s : SlotSpan, r = s ↔ ∀ word, r.contains word = s.contains word) ∧
    (∀ reply n, Node.ofReply reply = .ok n →
      ∃ fields, reply = .array fields ∧ Node.ServesBetween fields n) ∧
    ∀ reply nodes, Node.listOfReply reply = .ok nodes → ∀ n ∈ nodes,
      ∃ entries fields, reply = .array entries ∧ .array fields ∈ entries ∧
        Node.ServesBetween fields n := by
  refine ⟨fun start stop => exists_ofBounds_iff, fun start stop e => ofBounds_eq_error_iff,
    fun start stop r h => covers_of_ofBounds h, fun r s => eq_iff_contains,
    fun reply n h => Node.servesBetween_of_ofReply h,
    fun reply nodes h n hn => Node.servesBetween_of_listOfReply h hn⟩

/-- The last two slots. -/
def upperSlots : SlotSpan := ⟨⟨16382, by decide⟩, ⟨16383, by decide⟩, by decide⟩

def lastSlot : SlotSpan := ⟨⟨16383, by decide⟩, ⟨16383, by decide⟩, by decide⟩

def upperNode : Node := ⟨"b", 7001, upperSlots⟩

def upperEntry : Resp :=
  .array [.integer 16382, .integer 16383, .array [.bulk (Utf8.encode "b"), .integer 7001]]

theorem ranges_are_intervals_upper :
    (ofBounds 16382 16383 = .ok upperSlots ∧ Covers 16382 16383 upperSlots) ∧
      (ofBounds 16383 16383 = .ok lastSlot ∧
        (upperSlots = lastSlot ↔ ∀ word, upperSlots.contains word = lastSlot.contains word)) ∧
      (Node.ofReply upperEntry = .ok upperNode ∧
        ∃ fields, upperEntry = .array fields ∧ Node.ServesBetween fields upperNode) ∧
      (Node.listOfReply (.array [upperEntry]) = .ok [upperNode] ∧
        ∃ entries fields, Resp.array [upperEntry] = .array entries ∧ .array fields ∈ entries ∧
          Node.ServesBetween fields upperNode) := by
  obtain ⟨-, -, hcovers, hequal, hnode, hnodes⟩ := ranges_are_intervals
  have hupper : ofBounds 16382 16383 = .ok upperSlots := rfl
  have hlast : ofBounds 16383 16383 = .ok lastSlot := rfl
  have hread : Node.ofReply upperEntry = .ok upperNode := by decide
  have hlist : Node.listOfReply (.array [upperEntry]) = .ok [upperNode] := by decide
  exact ⟨⟨hupper, hcovers _ _ _ hupper⟩, ⟨hlast, hequal _ _⟩,
    ⟨hread, hnode _ _ hread⟩, hlist, hnodes _ _ hlist _ List.mem_cons_self⟩

/-! Numbers are not cut before they are looked at. -/

example : narrow 65536 = 0 ∧ ofBounds 65536 1 = .error (.outOfRange .startSlot 65536) := by decide

end SlotSpan

end RespWire.Cluster
