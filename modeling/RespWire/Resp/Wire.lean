import RespWire.Command.Encoding
import RespWire.Resp.Basic

/-!
# RESP on the wire

The written form of values. A line has a mark in front that tells its kind, and ends in CR LF. A
bulk string or an array has the number of its bytes or elements in front, so its content need not
be searched for an end. Values are written behind the bytes of those before them.
-/

namespace RespWire.Resp

/-- Ends every line. -/
def crlf : Bytes := [0x0D, 0x0A]

/-- The mark in front of a line of each kind. The absent value is written as a bulk string. -/
def Kind.mark : Kind → UInt8
  | .simple => 0x2B
  | .error => 0x2D
  | .integer => 0x3A
  | .bulk | .null => 0x24
  | .array => 0x2A

/-- A line. -/
def line (kind : Kind) (content : Bytes) : Bytes := kind.mark :: content ++ crlf

mutual
/-- Writes a value behind the given bytes. -/
def appendTo (out : Bytes) : Resp → Bytes
  | .simple text => out ++ line .simple (Utf8.encode text)
  | .error text => out ++ line .error (Utf8.encode text)
  | .integer value => out ++ line .integer (Encoding.integer value.toInt)
  | .bulk data => out ++ line .bulk (Encoding.natural data.length) ++ data ++ crlf
  | .null => out ++ line .null (Encoding.integer (-1))
  | .array items => appendAll (out ++ line .array (Encoding.natural items.length)) items

/-- Writes values one after another behind the given bytes. -/
def appendAll (out : Bytes) : List Resp → Bytes
  | [] => out
  | v :: vs => appendAll (appendTo out v) vs
end

/-- The written form of a value. -/
def encode (v : Resp) : Bytes := appendTo [] v

/-- The bytes after each of some values is written behind those before it. -/
def stages (out : Bytes) : List Resp → List Bytes
  | [] => []
  | v :: vs => appendTo out v :: stages (appendTo out v) vs

end RespWire.Resp
