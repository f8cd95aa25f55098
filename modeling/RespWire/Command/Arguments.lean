import RespWire.Command.Token
import RespWire.Resp.Basic

/-!
# Argument lists

Arguments of a command in the order in which they are sent, and the request made of them.
-/

namespace RespWire

/-- The arguments of a command, in order. -/
structure Arguments where
  items : List Bytes
  deriving DecidableEq, Repr

namespace Arguments

def empty : Arguments := ⟨[]⟩

def push (args : Arguments) (arg : Bytes) : Arguments := ⟨args.items ++ [arg]⟩

def pushToken (args : Arguments) (token : Token) : Arguments := args.push token.bytes

def extend (args : Arguments) (more : List Bytes) : Arguments := ⟨args.items ++ more⟩

def size (args : Arguments) : Nat := args.items.length

def isEmpty (args : Arguments) : Bool := args.items.isEmpty

/-- The arguments as texts, read lossily. -/
def texts (args : Arguments) : List String := args.items.map Utf8.decodeLossy

/-- A request: the name of the command, the leading arguments, then these. -/
def frame (args : Arguments) (command : String) (leading : List Bytes) : Resp :=
  .array ((Utf8.encode command :: leading ++ args.items).map .bulk)

end Arguments

end RespWire
