import Mathlib.Data.Finset.Card
import RespWire.Proofs.Collection.OrderedSet
import RespWire.SortedSet.Member

/-!
# Sets of scored members

Members of a set are the same if they have the same bytes and their scores the same bits. Unlike the
equality of numbers that is an equivalence: what is not a number is the same as itself, and the two
zeros are kept apart. A set is told by the pairs of bytes and bits that its members have, and lists
them in ascending order; a table of hashes has the same members.
-/

namespace RespWire

namespace Binary64

/-- Every double but those that are not numbers is equal to itself as a number. -/
lemma sameNumber_self (x : Binary64) : x.sameNumber x = !x.isNaN := by
  simp [sameNumber]

lemma sameNumber_zero (negative negative' : Bool) :
    (zero negative).sameNumber (zero negative') = true := by
  cases negative <;> cases negative' <;> decide

lemma zero_injective : Function.Injective zero := by
  have hbits : (zero false).bits ≠ (zero true).bits := by decide
  intro negative negative' h
  cases negative <;> cases negative'
  · rfl
  · exact absurd (congrArg bits h) hbits
  · exact absurd (congrArg bits h).symm hbits
  · rfl

end Binary64

namespace ScoredEntry

variable {a b : ScoredEntry} {entries others : List ScoredEntry}

/-! ### Equality -/

/-- The bytes of a member and the bits of its score. -/
def content (entry : ScoredEntry) : Bytes × UInt64 := (entry.member, entry.score.bits)

lemma content_injective : Function.Injective content := by
  rintro ⟨m, ⟨x⟩⟩ ⟨n, ⟨y⟩⟩ h
  obtain ⟨rfl, rfl⟩ := Prod.mk.inj h
  rfl

/-- Do two members have the same bytes, and their scores the same bits? -/
def same (a b : ScoredEntry) : Bool := a.member == b.member && a.score.bits == b.score.bits

lemma same_iff_content : same a b = true ↔ a.content = b.content := by
  rw [same, Bool.and_eq_true, beq_iff_eq, beq_iff_eq, content, content, Prod.mk.injEq]

lemma same_iff_eq : same a b = true ↔ a = b := same_iff_content.trans content_injective.eq_iff

lemma equivalence_same : Equivalence fun a b => same a b = true := by
  simp only [same_iff_eq]
  exact eq_equivalence

lemma same_zero_iff (member : Bytes) {negative negative' : Bool} :
    same ⟨member, .zero negative⟩ ⟨member, .zero negative'⟩ = true ↔ negative = negative' := by
  rw [same_iff_eq, ScoredEntry.mk.injEq, Binary64.zero_injective.eq_iff]
  exact and_iff_right rfl

/-! ### Sets -/

lemma setOfList_eq_iff : setOfList entries = setOfList others ↔
    ∀ c, c ∈ entries.map content ↔ c ∈ others.map content := by
  rw [setOfList, setOfList, OrderedSet.ofList_eq_iff,
    OrderedSet.forall_mem_map_iff content_injective]

/-- There are as many members as different contents. -/
lemma length_setOfList (entries : List ScoredEntry) :
    (setOfList entries).elements.length = (entries.map content).toFinset.card := by
  have hcontents : (entries.map content).toFinset = entries.toFinset.image content := by
    ext c
    simp
  rw [setOfList, OrderedSet.length_ofList, hcontents,
    Finset.card_image_of_injective _ content_injective]

/-- The members that a table of hashes has after some were put into it. A hash is made of the bytes
of a member and the bits of its score, and the order of the table is its own. -/
def tabulated (hash : Bytes × UInt64 → UInt64) (entries : List ScoredEntry) : List ScoredEntry :=
  let _ : BEq ScoredEntry := ⟨same⟩
  let _ : Hashable ScoredEntry := ⟨fun entry => hash entry.content⟩
  (Std.HashSet.ofList entries).toList

lemma tabulated_perm (hash : Bytes × UInt64 → UInt64) (entries : List ScoredEntry) :
    (tabulated hash entries).Perm (setOfList entries).elements := by
  let _ : BEq ScoredEntry := ⟨same⟩
  have hlawful : LawfulBEq ScoredEntry :=
    { eq_of_beq := same_iff_eq.1, rfl := same_iff_eq.2 rfl }
  let _ : Hashable ScoredEntry := ⟨fun entry => hash entry.content⟩
  exact OrderedSet.toList_hashSet_perm entries

/-- Two lists of members have the same set exactly if they have the same pairs of bytes and bits, in
any order and any number of times. The set has the members of the list, one for each such pair, in
ascending order of the bytes and then of the bits, and so has a table with any hash of the pairs.
That is because members are the same in an equivalence: unlike as a number, a score that is not a
number is the same as itself, and zeros of different signs are not the same. -/
theorem set_of_bytes_and_bits :
    (∀ entries others, setOfList entries = setOfList others ↔
      ∀ c, c ∈ entries.map content ↔ c ∈ others.map content) ∧
    (∀ entries, (∀ entry, entry ∈ (setOfList entries).elements ↔ entry ∈ entries) ∧
      (setOfList entries).elements.length = (entries.map content).toFinset.card ∧
      (setOfList entries).elements.Pairwise (fun a b =>
        a.member < b.member ∨ a.member = b.member ∧ a.score.bits < b.score.bits) ∧
      ∀ hash, (tabulated hash entries).Perm (setOfList entries).elements) ∧
    (∀ entries others, entries.Perm others → setOfList entries = setOfList others) ∧
    (Equivalence fun a b => same a b = true) ∧
    (∀ a b, same a b = true ↔ a = b) ∧
    (∀ x : Binary64, x.sameNumber x = !x.isNaN) ∧
    ∀ negative negative', (Binary64.zero negative).sameNumber (.zero negative') = true ∧
      ∀ member, same ⟨member, .zero negative⟩ ⟨member, .zero negative'⟩ = true ↔
        negative = negative' := by
  refine ⟨fun entries others => setOfList_eq_iff, fun entries => ⟨fun entry => ?_, ?_, ?_, ?_⟩,
    fun entries others hperm => ?_, equivalence_same, fun a b => same_iff_eq,
    Binary64.sameNumber_self, fun negative negative' => ⟨?_, fun member => same_zero_iff member⟩⟩
  · exact OrderedSet.mem_ofList
  · exact length_setOfList entries
  · exact (setOfList entries).ascending
  · exact fun hash => tabulated_perm hash entries
  · exact setOfList_eq_iff.2 fun c => (hperm.map content).mem_iff
  · exact Binary64.sameNumber_zero negative negative'

/-- What is not a number is in a set once, and either zero is. -/
theorem set_of_bytes_and_bits_zeros :
    let entries : List ScoredEntry :=
      [⟨[0x61], .nan false⟩, ⟨[0x61], .zero true⟩, ⟨[0x61], .nan false⟩, ⟨[0x61], .zero false⟩]
    (setOfList entries).elements =
        [⟨[0x61], .zero false⟩, ⟨[0x61], .nan false⟩, ⟨[0x61], .zero true⟩] ∧
      entries.reverse.Perm entries ∧ setOfList entries.reverse = setOfList entries := by
  intro entries
  have hperm : entries.reverse.Perm entries := entries.reverse_perm
  exact ⟨by decide, hperm, set_of_bytes_and_bits.2.2.1 _ _ hperm⟩

end ScoredEntry

end RespWire
