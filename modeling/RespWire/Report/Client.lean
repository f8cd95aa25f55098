import RespWire.Report.Properties
import RespWire.Text.Blank
import RespWire.Text.Lines

/-!
# Connected clients

The report on connected clients has a line for each, made of words that give a name and a text
around the first equals sign. A word without one is a name with an empty text.
-/

namespace RespWire

/-- What is reported of a client. -/
structure ClientRecord where
  properties : Properties
  deriving DecidableEq, Repr

namespace ClientRecord

/-- A word as name and text. -/
def ofWord (word : List Char) : String × String :=
  (String.ofList (word.takeWhile (· ≠ '=')), String.ofList ((word.dropWhile (· ≠ '=')).drop 1))

def ofLine (line : List Char) : ClientRecord := ⟨.ofList ((words line).map ofWord)⟩

/-- The lines of a report that are not blank. -/
def reportLines (report : String) : List (List Char) :=
  (lines report.toList).filter fun line => !line.all isBlank

/-- Reads a report, a record for each line. An absent or blank one has none. -/
def listOfReport : Option String → List ClientRecord
  | none => []
  | some report => if isBlankText report then [] else (reportLines report).map ofLine

def get? (c : ClientRecord) (name : String) : Option String := c.properties.get? name

def getInt64? (c : ClientRecord) (name : String) : Option Int64 := c.properties.getInt64? name

/-- Host and port of the client. -/
def address (c : ClientRecord) : Option String := c.get? "addr"

/-- The descriptor of its socket. -/
def fileDescriptor (c : ClientRecord) : Option Int64 := c.getInt64? "fd"

def name (c : ClientRecord) : Option String := c.get? "name"

/-- Seconds since it connected. -/
def age (c : ClientRecord) : Option Int64 := c.getInt64? "age"

/-- Seconds since its last command. -/
def idle (c : ClientRecord) : Option Int64 := c.getInt64? "idle"

def flags (c : ClientRecord) : Option String := c.get? "flags"

/-- The database it works on. -/
def databaseId (c : ClientRecord) : Option Int64 := c.getInt64? "db"

def channelSubscriptions (c : ClientRecord) : Option Int64 := c.getInt64? "sub"

def patternSubscriptions (c : ClientRecord) : Option Int64 := c.getInt64? "psub"

/-- The number of commands in its transaction. -/
def multiCommandContext (c : ClientRecord) : Option Int64 := c.getInt64? "multi"

def bufferLength (c : ClientRecord) : Option Int64 := c.getInt64? "qbuf"

def bufferFreeSpace (c : ClientRecord) : Option Int64 := c.getInt64? "qbuf-free"

def outputBufferLength (c : ClientRecord) : Option Int64 := c.getInt64? "obl"

def outputListLength (c : ClientRecord) : Option Int64 := c.getInt64? "oll"

def outputBufferMemoryUsage (c : ClientRecord) : Option Int64 := c.getInt64? "omem"

/-- The file events it waits for. -/
def events (c : ClientRecord) : Option String := c.get? "events"

def lastCommand (c : ClientRecord) : Option String := c.get? "cmd"

end ClientRecord

end RespWire
