import RespWire.Command.Arguments
import RespWire.Command.Encoding
import RespWire.Resp.Shape
import RespWire.Text.Blank

/-!
# SCAN iterations

A scan asks for one page after another, each time with the cursor of the page before, until a page
has the cursor zero. This module has the filter of a scan, the pages, and the walk over them.
-/

namespace RespWire

/-- What a scan is restricted to. -/
structure ScanFilter where
  count : Option UInt64
  pattern : Option String
  deriving DecidableEq, Repr

namespace ScanFilter

def unrestricted : ScanFilter := ⟨none, none⟩

/-- A scan is unrestricted unless something else is asked for. -/
instance : Inhabited ScanFilter := ⟨unrestricted⟩

def isUnrestricted (f : ScanFilter) : Bool := f = unrestricted

inductive Edit where
  | count (count : UInt64)
  | pattern (pattern : String)
  deriving DecidableEq, Repr

def edit (f : ScanFilter) : Edit → ScanFilter
  | .count count => { f with count := some count }
  | .pattern pattern => { f with pattern := some pattern }

/-- The filter after changes from the first to the last. -/
def run (f : ScanFilter) (edits : List Edit) : ScanFilter := edits.foldl edit f

/-- The arguments of a pattern. A blank one adds nothing, and any other is kept with its blanks. -/
def patternArguments (f : ScanFilter) : List Bytes :=
  match f.pattern with
  | some pattern =>
    if isBlankText pattern then [] else [Token.matchWord.bytes, Utf8.encode pattern]
  | none => []

def countArguments (f : ScanFilter) : List Bytes :=
  match f.count with
  | some count => [Token.count.bytes, Encoding.natural count.toNat]
  | none => []

/-- The arguments of SCAN behind the cursor. -/
def arguments (f : ScanFilter) : Arguments :=
  if f.isUnrestricted then .empty else ⟨f.patternArguments ++ f.countArguments⟩

end ScanFilter

def cursorBytes (cursor : UInt64) : Bytes := Encoding.natural cursor.toNat

/-- A page of a scan: the cursor of the next one, and items. -/
structure ScanPage where
  cursor : UInt64
  items : List Bytes
  deriving DecidableEq, Repr

namespace ScanPage

def isLast (p : ScanPage) : Bool := p.cursor = 0

/-- A cursor, sent as an integer or as the text of one. -/
def cursorOfReply : Resp → Except ReplyError UInt64
  | .integer value =>
    if 0 ≤ value.toInt then .ok (UInt64.ofNat value.toInt.toNat)
    else .error (.outOfRange .cursor value)
  | reply => do
    let text ← reply.requireText
    match Numeral.uint64? text with
    | some cursor => .ok cursor
    | none => .error (.invalidInteger text)

/-- Reads a page: an array of a cursor and an array of bulk strings. -/
def ofReply (reply : Resp) : Except ReplyError ScanPage := do
  match ← reply.requireArray with
  | [cursor, items] =>
    let cursor ← cursorOfReply cursor
    let items ← (← items.requireArray).mapM Resp.requireBulk
    return ⟨cursor, items⟩
  | parts => .error (.wrongCount 2 parts.length)

end ScanPage

/-- A scan: the command, the key it walks over if it walks over one, and its filter. -/
structure Scan where
  command : String
  key : Option Bytes
  filter : ScanFilter
  deriving DecidableEq, Repr

namespace Scan

/-- One turn of a walk: what was asked, and what the answer was read as. -/
structure Turn where
  request : Resp
  page : Except ReplyError ScanPage

/-- The request for the page at a cursor. -/
def request (s : Scan) (cursor : UInt64) : Resp :=
  s.filter.arguments.frame s.command (s.key.toList ++ [cursorBytes cursor])

/-- The walk from a cursor, fed with replies. It ends with the last page and with a refused one. -/
def walkFrom (s : Scan) (cursor : UInt64) : List Resp → List Turn
  | [] => []
  | reply :: replies =>
    match ScanPage.ofReply reply with
    | .error e => [⟨s.request cursor, .error e⟩]
    | .ok page =>
      ⟨s.request cursor, .ok page⟩ ::
        if page.isLast then [] else s.walkFrom page.cursor replies

def walk (s : Scan) (replies : List Resp) : List Turn := s.walkFrom 0 replies

end Scan

end RespWire
