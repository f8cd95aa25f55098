import RespWire.Cluster.Node
import RespWire.Failure
import RespWire.Report.Client
import RespWire.Report.Sentinel
import RespWire.SortedSet.Member

/-!
# Events

What is worth a line in a log, as a function of what was read. A summary tells how much a reader
found; there is none where it refused its input or had none.
-/

namespace RespWire

/-- How much attention an event asks for. -/
inductive Level where
  | trace
  | debug
  | warn
  deriving DecidableEq, Repr

/-- An event: a message, and values by name. -/
structure Event where
  level : Level
  message : String
  fields : List (String × String)
  deriving DecidableEq, Repr

namespace Event

variable {α ε : Type}

def summary (message field : String) (found : List α) : Event :=
  ⟨.trace, message, [(field, Numeral.text found.length)]⟩

/-- The summary of what a reply was read as. -/
def summaryOf (message field : String) (reply : Resp) (found : Except ε (List α)) : List Event :=
  match found with
  | .ok found => if reply.isNull then [] else [summary message field found]
  | .error _ => []

def ofScoredMembers (reply : Resp) : List Event :=
  summaryOf "Parsed scored members" "count" reply (ScoredEntry.ofReply reply)

def ofTopology (reply : Resp) : List Event :=
  summaryOf "Parsed cluster topology" "nodes" reply (Cluster.Node.listOfReply reply)

def ofSentinelReply (reply : Resp) : List Event :=
  summaryOf "Parsed sentinel server list" "servers" reply (ServerRecord.propertiesOfReply reply)

/-- A line on a client was read: a warning for each word without an equals sign. -/
def ofClientLine (line : List Char) : List Event :=
  ((words line).filter fun word => !word.contains '=').map fun word =>
    ⟨.warn, "Client info token without '='", [("token", String.ofList word)]⟩

/-- A report on clients was read: what its lines give, then the summary. A blank report gives
nothing. -/
def ofClientReport (report : Option String) : List Event :=
  match ClientRecord.listOfReport report with
  | [] => []
  | records =>
    (ClientRecord.reportLines (report.getD "")).flatMap ofClientLine ++
      [summary "Parsed client list" "clients" records]

/-- A failure was folded into another. -/
def ofFailure (e : AccessFailure) : List Event :=
  [⟨.debug, "Translated client error", [("error", e.message)]⟩]

end Event

end RespWire
