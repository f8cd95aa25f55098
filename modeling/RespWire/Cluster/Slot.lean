import RespWire.Resp.Shape

/-!
# Slots

The keys of a cluster are spread over a fixed number of slots; a node serves a range of them.
-/

namespace RespWire.Cluster

/-- The number of slots of a cluster. -/
def slotCount : Nat := 16384

/-- A slot of a cluster. -/
abbrev Slot := Fin slotCount

/-- The slot of a number that stands in a field. -/
def Slot.ofInteger (field : Field) (value : Int64) : Except ReplyError Slot :=
  if h : 0 ≤ value.toInt ∧ value.toInt < slotCount then .ok ⟨value.toInt.toNat, by omega⟩
  else .error (.outOfRange field value)

/-- The slots of a range, from the first to the last. No range is empty. -/
structure SlotSpan where
  start : Slot
  stop : Slot
  start_le_stop : start ≤ stop
  deriving DecidableEq, Repr

namespace SlotSpan

/-- The range between two numbers. Both have to be slots, and then in order. -/
def ofBounds (start stop : Int64) : Except ReplyError SlotSpan := do
  let start ← Slot.ofInteger .startSlot start
  let stop ← Slot.ofInteger .endSlot stop
  if h : start ≤ stop then .ok ⟨start, stop, h⟩ else .error (.inverted start stop)

/-- Does the range have the slot of a number? -/
def contains (r : SlotSpan) (slot : UInt16) : Bool :=
  r.start.val ≤ slot.toNat && slot.toNat ≤ r.stop.val

def size (r : SlotSpan) : Nat := r.stop.val - r.start.val + 1

end SlotSpan

end RespWire.Cluster
