/-!
# Version
-/

namespace RespWire

/-- The version of this library. -/
def version : String := "0.1.0"

end RespWire
