import RespWire.Text.Utf8

/-!
# RESP values

The values that requests and replies are made of, their kinds, and views of their content.
-/

namespace RespWire

/-- A value of the wire protocol. -/
inductive Resp where
  | simple (text : String)
  | error (text : String)
  | integer (value : Int64)
  /-- Any bytes, with their length in front. -/
  | bulk (data : Bytes)
  /-- The absent value. -/
  | null
  | array (items : List Resp)
  deriving Repr

namespace Resp

mutual
/-- Do two values have the same shape and content? -/
def same : Resp → Resp → Bool
  | .simple s, .simple t => s = t
  | .error s, .error t => s = t
  | .integer m, .integer n => m = n
  | .bulk a, .bulk b => a = b
  | .null, .null => true
  | .array xs, .array ys => sameAll xs ys
  | _, _ => false

/-- Do two lists have the same values in the same order? -/
def sameAll : List Resp → List Resp → Bool
  | [], [] => true
  | x :: xs, y :: ys => same x y && sameAll xs ys
  | _, _ => false
end

mutual
theorem same_iff (x y : Resp) : same x y = true ↔ x = y := by
  cases x <;> cases y <;> simp [same, sameAll_iff]

theorem sameAll_iff (xs ys : List Resp) : sameAll xs ys = true ↔ xs = ys := by
  match xs, ys with
  | [], [] => simp [sameAll]
  | x :: xs, y :: ys => simp [sameAll, same_iff x y, sameAll_iff xs ys]
  | [], _ :: _ | _ :: _, [] => simp [sameAll]
end

instance : DecidableEq Resp := fun x y => decidable_of_iff _ (same_iff x y)

inductive Kind where
  | simple
  | error
  | integer
  | bulk
  | null
  | array
  deriving DecidableEq, Repr

def Kind.name : Kind → String
  | .simple => "simple string"
  | .error => "error"
  | .integer => "integer"
  | .bulk => "bulk string"
  | .null => "null"
  | .array => "array"

def kind : Resp → Kind
  | .simple _ => .simple
  | .error _ => .error
  | .integer _ => .integer
  | .bulk _ => .bulk
  | .null => .null
  | .array _ => .array

def isNull (v : Resp) : Bool := v.kind = .null

def isError (v : Resp) : Bool := v.kind = .error

/-- The text of a simple string, and of a bulk string that is well-formed UTF-8. -/
def text? : Resp → Option String
  | .simple text => some text
  | .bulk data => Utf8.decode? data
  | _ => none

/-- The bytes of a bulk string or a simple string. -/
def bytes? : Resp → Option Bytes
  | .bulk data => some data
  | .simple text => some (Utf8.encode text)
  | _ => none

def integer? : Resp → Option Int64
  | .integer value => some value
  | _ => none

def array? : Resp → Option (List Resp)
  | .array items => some items
  | _ => none

end Resp

end RespWire
