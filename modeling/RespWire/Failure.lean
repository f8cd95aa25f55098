import RespWire.Resp.Shape

/-!
# Failures

What goes wrong beneath this library, folded into four kinds that say nothing about the store. The
failure beneath stays reachable, and so does every cause beneath that.
-/

namespace RespWire

/-- An error of another library: its message and those of its causes, the nearest first. -/
structure Cause where
  message : String
  beneath : List String
  deriving DecidableEq, Repr

/-- An error with a message put around it. -/
def Cause.wrap (cause : Cause) (message : String) : Cause :=
  ⟨message, cause.message :: cause.beneath⟩

/-- A root with messages put around it one after another. -/
def Cause.ofMessages (root : String) (messages : List String) : Cause :=
  messages.foldl wrap ⟨root, []⟩

inductive IoKind where
  | connectionRefused
  | connectionReset
  | brokenPipe
  | timedOut
  | unexpectedEnd
  | invalidData
  deriving DecidableEq, Repr

def IoKind.message : IoKind → String
  | .connectionRefused => "connection refused"
  | .connectionReset => "connection reset"
  | .brokenPipe => "broken pipe"
  | .timedOut => "timed out"
  | .unexpectedEnd => "unexpected end of file"
  | .invalidData => "invalid data"

/-- A failure of input or output that has no further cause. -/
def Cause.ofIo (kind : IoKind) (message : Option String) : Cause := ⟨message.getD kind.message, []⟩

/-- A refused reply as the error of another library. -/
def Cause.ofReplyError (e : ReplyError) : Cause := ⟨e.message, []⟩

/-- A failure of the client or of what is beneath it. -/
inductive ClientFailure where
  | io (cause : Cause)
  | connection (text : String)
  /-- The server answered with an error message. -/
  | server (text : String)
  /-- A request was redirected too often. -/
  | redirections (text : String)
  | protocol (text : String)
  | reply (error : ReplyError)
  /-- Anything else. It is transparent: its message is that of the cause. -/
  | other (cause : Cause)
  deriving DecidableEq, Repr

/-- What a failure to access data is about. -/
inductive AccessFailure.Kind where
  /-- The store cannot be reached. -/
  | connection
  /-- The store was not used as it wants to be. -/
  | usage
  /-- The cluster sent the request around. -/
  | redirections
  | system
  deriving DecidableEq, Repr

/-- What the message of a failure starts with. -/
def AccessFailure.Kind.opening : AccessFailure.Kind → String
  | .connection => "could not connect to the store: "
  | .usage => "invalid data access API usage: "
  | .redirections => "too many cluster redirections: "
  | .system => "unexpected store error: "

/-- A failure to access data, and the failure of the client that it comes from. -/
structure AccessFailure where
  kind : AccessFailure.Kind
  detail : String
  source : ClientFailure
  deriving DecidableEq, Repr

namespace ClientFailure

/-- The failure that a reply is, if it is an error message. -/
def ofReply? : Resp → Option ClientFailure
  | .error text => some (.server text)
  | _ => none

def message : ClientFailure → String
  | .io cause => "I/O error: " ++ cause.message
  | .connection text => "connection error: " ++ text
  | .server text => "server error: " ++ text
  | .redirections text => "too many cluster redirections: " ++ text
  | .protocol text => "protocol error: " ++ text
  | .reply error => "conversion error: " ++ error.message
  | .other cause => cause.message

/-- The messages of what is beneath a failure, the nearest first. -/
def beneath : ClientFailure → List String
  | .io cause => cause.message :: cause.beneath
  | .reply error => [error.message]
  | .other cause => cause.beneath
  | _ => []

/-- The kind that a failure is folded into. -/
def kind : ClientFailure → AccessFailure.Kind
  | .io _ | .connection _ => .connection
  | .server _ | .protocol _ => .usage
  | .redirections _ => .redirections
  | .reply _ | .other _ => .system

/-- Folds a failure into one that says nothing about the store. -/
def toAccessFailure (e : ClientFailure) : AccessFailure := ⟨e.kind, e.message, e⟩

end ClientFailure

namespace AccessFailure

def message (e : AccessFailure) : String := e.kind.opening ++ e.detail

/-- The messages of everything beneath a failure, the nearest first. -/
def beneath (e : AccessFailure) : List String := e.source.message :: e.source.beneath

end AccessFailure

/-! ### Sources -/

/-- An error of this library or of another one, as a link in a chain of causes. -/
inductive Link where
  | access (e : AccessFailure)
  | client (e : ClientFailure)
  | reply (e : ReplyError)
  | other (cause : Cause)
  deriving DecidableEq, Repr

def Link.message : Link → String
  | .access e => e.message
  | .client e => e.message
  | .reply e => e.message
  | .other cause => cause.message

/-- The nearest of the causes of an error. -/
def Cause.source? (cause : Cause) : Option Cause :=
  match cause.beneath with
  | [] => none
  | message :: beneath => some ⟨message, beneath⟩

/-- What a failure comes from. A failure that is transparent passes on what its cause comes from. -/
def ClientFailure.source? : ClientFailure → Option Link
  | .io cause => some (.other cause)
  | .reply error => some (.reply error)
  | .other cause => cause.source?.map .other
  | _ => none

/-- The error that one comes from, if it names one. -/
def Link.source? : Link → Option Link
  | .access e => some (.client e.source)
  | .client e => e.source?
  | .reply _ => none
  | .other cause => cause.source?.map .other

end RespWire
