import RespWire.Number.Numeral
import RespWire.Resp.Basic

/-!
# Descriptions of RESP values

One line for people to read. Text stands in quotes as it is; it cannot be read back.
-/

namespace RespWire.Resp

/-- A text in quotes. -/
def quoted (text : String) : String := "\"" ++ text ++ "\""

mutual
/-- What a value holds. -/
def describe : Resp → String
  | .simple text => quoted text
  | .error text => "(error) " ++ text
  | .integer value => "(integer) " ++ Numeral.text value.toInt
  | .bulk data =>
    match Utf8.decode? data with
    | some text => quoted text
    | none => "(binary data, " ++ Numeral.text data.length ++ " bytes)"
  | .null => "(nil)"
  | .array items => "[" ++ describeAll items ++ "]"

/-- What some values hold, with commas between them. -/
def describeAll : List Resp → String
  | [] => ""
  | [v] => describe v
  | v :: w :: vs => describe v ++ ", " ++ describeAll (w :: vs)
end

end RespWire.Resp
