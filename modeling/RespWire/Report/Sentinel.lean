import RespWire.Report.Properties
import RespWire.Resp.Shape

/-!
# Monitored servers

The servers that a sentinel watches, each reported as names and texts in turn.
-/

namespace RespWire

/-- What is reported of a server. -/
structure ServerRecord where
  properties : Properties
  deriving DecidableEq, Repr

namespace ServerRecord

/-- The record of some pairs, in which a later pair replaces an earlier one. -/
def ofPairs (pairs : List (String × String)) : ServerRecord := ⟨.ofList pairs⟩

/-- Records, one for each list of pairs. An absent report has none. -/
def listOfPairs (report : Option (List (List (String × String)))) : List ServerRecord :=
  (report.getD []).map ofPairs

/-- A text, sent as a string of either kind or as an integer. -/
def textOfReply : Resp → Except ReplyError String
  | .integer value => .ok (Numeral.text value.toInt)
  | reply => reply.requireText

/-- Reads names and texts in turn. -/
def pairsOfFields : List Resp → Except ReplyError (List (String × String))
  | name :: text :: rest => do
    let name ← textOfReply name
    let text ← textOfReply text
    let pairs ← pairsOfFields rest
    return (name, text) :: pairs
  | _ => .ok []

/-- Reads the properties of one server. -/
def propertiesOfEntry (entry : Resp) : Except ReplyError Properties := do
  let fields ← entry.requireArray
  if fields.length % 2 ≠ 0 then .error (.unpaired fields.length)
  else return .ofList (← pairsOfFields fields)

/-- Reads the properties of every server. The absent reply has none. -/
def propertiesOfReply : Resp → Except ReplyError (List Properties)
  | .null => .ok []
  | reply => do (← reply.requireArray).mapM propertiesOfEntry

/-- Reads a record for every server. -/
def listOfReply (reply : Resp) : Except ReplyError (List ServerRecord) := do
  return listOfPairs (some ((← propertiesOfReply reply).map Dictionary.entries))

def get? (s : ServerRecord) (name : String) : Option String := s.properties.get? name

def getInt64? (s : ServerRecord) (name : String) : Option Int64 := s.properties.getInt64? name

def name (s : ServerRecord) : Option String := s.get? "name"

def host (s : ServerRecord) : Option String := s.get? "ip"

def port (s : ServerRecord) : Option UInt16 := (s.get? "port").bind Numeral.uint16?

/-- The identity of its present run. -/
def runId (s : ServerRecord) : Option String := s.get? "runid"

def flags (s : ServerRecord) : Option String := s.get? "flags"

/-- The role that it claims. -/
def roleReported (s : ServerRecord) : Option String := s.get? "role-reported"

def numberOfReplicas (s : ServerRecord) : Option Int64 := s.getInt64? "num-slaves"

def numberOfOtherSentinels (s : ServerRecord) : Option Int64 := s.getInt64? "num-other-sentinels"

/-- The number of sentinels that have to agree that it is down. -/
def quorum (s : ServerRecord) : Option Int64 := s.getInt64? "quorum"

end ServerRecord

end RespWire
