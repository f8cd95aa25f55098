import Mathlib.Tactic.Common
import RespWire.Cluster.Slot
import RespWire.Proofs.Resp.Shape

/-!
# Slots from numbers

A number is read as a slot exactly if it is in range, and two numbers as a range of slots exactly if
both are slots and in order. Where that fails, the first number is to blame before the second one,
and each before their order.
-/

namespace RespWire.Cluster

variable {field : Field} {value start stop : Int64} {e : ReplyError}

/-- Is a number that of a slot? -/
def IsSlot (value : Int64) : Prop := 0 ≤ value.toInt ∧ value.toInt < slotCount

lemma isSlot_iff : IsSlot value ↔ ∃ slot : Slot, (slot.val : Int) = value.toInt := by
  constructor
  · rintro ⟨hlow, hhigh⟩
    exact ⟨⟨value.toInt.toNat, by omega⟩, Int.toNat_of_nonneg hlow⟩
  · rintro ⟨slot, hslot⟩
    rw [IsSlot, ← hslot]
    exact ⟨Int.natCast_nonneg _, Int.ofNat_lt.2 slot.isLt⟩

lemma Slot.ofInteger_eq_ok_iff {slot : Slot} :
    Slot.ofInteger field value = .ok slot ↔ (slot.val : Int) = value.toInt := by
  rw [Slot.ofInteger]
  split_ifs with h
  · simp only [Except.ok.injEq, Fin.ext_iff]
    omega
  · refine ⟨nofun, fun hslot => absurd ?_ h⟩
    exact isSlot_iff.2 ⟨slot, hslot⟩

lemma Slot.ofInteger_eq_error_iff :
    Slot.ofInteger field value = .error e ↔ ¬ IsSlot value ∧ .outOfRange field value = e := by
  rw [Slot.ofInteger]
  split_ifs with h <;> simp [IsSlot, h]

namespace SlotSpan

/-- Why two numbers are not the ends of a range of slots. -/
inductive Fault (start stop : Int64) : ReplyError → Prop where
  | start (h : ¬ IsSlot start) : Fault start stop (.outOfRange .startSlot start)
  | stop (hstart : IsSlot start) (h : ¬ IsSlot stop) :
    Fault start stop (.outOfRange .endSlot stop)
  | order (hstart : IsSlot start) (hstop : IsSlot stop) (h : stop.toInt < start.toInt) :
    Fault start stop (.inverted start.toInt.toNat stop.toInt.toNat)

lemma ofBounds_eq_ok_iff {slots : SlotSpan} :
    ofBounds start stop = .ok slots ↔
      (slots.start.val : Int) = start.toInt ∧ (slots.stop.val : Int) = stop.toInt := by
  simp only [ofBounds, bind_eq_ok_iff, Slot.ofInteger_eq_ok_iff]
  constructor
  · rintro ⟨a, ha, b, hb, h⟩
    split_ifs at h
    cases h
    exact ⟨ha, hb⟩
  · rintro ⟨ha, hb⟩
    exact ⟨slots.start, ha, slots.stop, hb, dif_pos slots.start_le_stop⟩

lemma ofBounds_eq_error_iff : ofBounds start stop = .error e ↔ Fault start stop e := by
  simp only [ofBounds, bind_eq_error_iff, Slot.ofInteger_eq_ok_iff, Slot.ofInteger_eq_error_iff]
  constructor
  · rintro (⟨h, rfl⟩ | ⟨a, ha, ⟨h, rfl⟩ | ⟨b, hb, h⟩⟩)
    · exact .start h
    · exact .stop (isSlot_iff.2 ⟨a, ha⟩) h
    · split_ifs at h with hle
      cases h
      have hlt : stop.toInt < start.toInt := by
        rw [← ha, ← hb]
        exact Int.ofNat_lt.2 (Fin.not_le.1 hle)
      have hfault := Fault.order (isSlot_iff.2 ⟨a, ha⟩) (isSlot_iff.2 ⟨b, hb⟩) hlt
      rwa [← ha, ← hb] at hfault
  · intro h
    cases h with
    | start h => exact .inl ⟨h, rfl⟩
    | stop hstart h =>
      obtain ⟨a, ha⟩ := isSlot_iff.1 hstart
      exact .inr ⟨a, ha, .inl ⟨h, rfl⟩⟩
    | order hstart hstop h =>
      obtain ⟨a, ha⟩ := isSlot_iff.1 hstart
      obtain ⟨b, hb⟩ := isSlot_iff.1 hstop
      rw [← ha, ← hb] at h
      refine .inr ⟨a, ha, .inr ⟨b, hb, ?_⟩⟩
      rw [dif_neg (Fin.not_le.2 (Int.ofNat_lt.1 h)), ← ha, ← hb]
      rfl

/-- The ends of a range of slots are any two slots in order. -/
lemma exists_ofBounds_iff : (∃ slots, ofBounds start stop = .ok slots) ↔
    0 ≤ start.toInt ∧ start.toInt ≤ stop.toInt ∧ stop.toInt < slotCount := by
  simp only [ofBounds_eq_ok_iff]
  constructor
  · rintro ⟨slots, hstart, hstop⟩
    have hle : slots.start.val ≤ slots.stop.val := slots.start_le_stop
    have hlt : slots.stop.val < slotCount := slots.stop.isLt
    omega
  · rintro ⟨hlow, hle, hhigh⟩
    obtain ⟨a, ha⟩ := isSlot_iff.1 ⟨hlow, by omega⟩
    obtain ⟨b, hb⟩ := isSlot_iff.1 ⟨by omega, hhigh⟩
    exact ⟨⟨a, b, Fin.le_def.2 (by omega)⟩, ha, hb⟩

end SlotSpan

end RespWire.Cluster
