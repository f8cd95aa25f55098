import RespWire.Cluster.Slot

/-!
# Cluster nodes

The nodes of a cluster with the slots they serve, read from entries of a first slot, a last slot and
an array that starts with a host and a port. The entries of a topology may have further fields,
which are not read; an entry on its own has just these.
-/

namespace RespWire.Cluster

/-- A node and the slots it serves. -/
structure Node where
  host : String
  port : UInt16
  slots : SlotSpan
  deriving DecidableEq, Repr

namespace Node

/-- Host and port with a colon between them. -/
def address (n : Node) : String :=
  n.host ++ ":" ++ Numeral.text n.port.toNat

def serves (n : Node) (slot : UInt16) : Bool := n.slots.contains slot

def portOfInteger (value : Int64) : Except ReplyError UInt16 :=
  if 0 ≤ value.toInt ∧ value.toInt < UInt16.size then .ok (UInt16.ofNat value.toInt.toNat)
  else .error (.outOfRange .port value)

/-- Reads the node that owns some slots. -/
def ofOwner (slots : SlotSpan) (owner : Resp) : Except ReplyError Node := do
  match ← owner.requireArray with
  | host :: port :: _ =>
    let host ← host.requireText
    let port ← portOfInteger (← port.requireInteger)
    return ⟨host, port, slots⟩
  | fields => .error (.wrongCount 2 fields.length)

/-- Reads a node from the fields of its entry. -/
def ofFields (start stop owner : Resp) : Except ReplyError Node := do
  let start ← start.requireInteger
  let stop ← stop.requireInteger
  ofOwner (← SlotSpan.ofBounds start stop) owner

/-- Reads a single entry, of three fields exactly. -/
def ofReply (reply : Resp) : Except ReplyError Node := do
  match ← reply.requireArray with
  | [start, stop, owner] => ofFields start stop owner
  | fields => .error (.wrongCount 3 fields.length)

/-- Reads an entry of a topology, of three fields at least. -/
def ofEntry (entry : Resp) : Except ReplyError Node := do
  match ← entry.requireArray with
  | start :: stop :: owner :: _ => ofFields start stop owner
  | fields => .error (.wrongCount 3 fields.length)

/-- Reads a topology, one node for each entry. The absent reply has none. -/
def listOfReply : Resp → Except ReplyError (List Node)
  | .null => .ok []
  | reply => do (← reply.requireArray).mapM ofEntry

end Node

end RespWire.Cluster
