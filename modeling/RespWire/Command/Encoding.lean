import RespWire.Text.Utf8
import RespWire.Number.Shortest
import RespWire.Collection.Dictionary
import RespWire.Collection.OrderedSet

/-!
# Encoded arguments

The bytes that stand for a text, a number or a collection of texts in a command. Text is UTF-8;
numbers are written as text.
-/

namespace RespWire.Encoding

/-- An integer as the bytes of its numeral. -/
def integer (n : Int) : Bytes := Utf8.encode (Numeral.text n)

/-- A natural number as the bytes of its numeral. -/
def natural (n : Nat) : Bytes := Utf8.encode (Numeral.text n)

/-- A double as the bytes of its shortest text. -/
def double (x : Binary64) : Bytes := Utf8.encode x.toText

/-- Texts, each encoded, in order. -/
def texts (items : List String) : List Bytes := items.map Utf8.encode

/-- The set of the encodings of some texts. -/
def textSet (items : List String) : OrderedSet Bytes := .ofList (texts items)

/-- A table of texts with keys and values encoded. The last pair with a key counts. -/
def textTable (pairs : List (String × String)) : Dictionary Bytes Bytes :=
  .ofList (pairs.map fun p => (Utf8.encode p.1, Utf8.encode p.2))

/-- Keys and values in turn, as commands take them that set several fields. -/
def flatten (pairs : List (Bytes × Bytes)) : List Bytes := pairs.flatMap fun p => [p.1, p.2]

end RespWire.Encoding
