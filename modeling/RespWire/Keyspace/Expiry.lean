import RespWire.Command.Arguments
import RespWire.Command.Encoding

/-!
# Expiry and conditions of a write

How long a written key lives and under which condition it is written, and the arguments that say so.
Durations that are not whole seconds are rounded up to milliseconds, so a lifetime is shortened only
where its milliseconds exceed a word.
-/

namespace RespWire

/-- The units in which lifetimes are given. -/
inductive Duration.Unit where
  | seconds
  | milliseconds
  deriving DecidableEq, Repr

/-- Seconds are meant where no unit is given. -/
instance : Inhabited Duration.Unit := ⟨.seconds⟩

/-- A length of time: whole seconds and the nanoseconds beyond them. -/
structure Duration where
  seconds : UInt64
  nanos : Nat
  nanos_lt : nanos < 1_000_000_000
  deriving DecidableEq, Repr

namespace Duration

def totalNanos (d : Duration) : Nat := d.seconds.toNat * 1_000_000_000 + d.nanos

def ofSeconds (seconds : UInt64) : Duration := ⟨seconds, 0, by decide⟩

def ofMilliseconds (milliseconds : UInt64) : Duration :=
  ⟨milliseconds / 1000, milliseconds.toNat % 1000 * 1_000_000, by omega⟩

end Duration

/-- How long a key lives. -/
inductive Expiry where
  /-- Until it is deleted. -/
  | never
  /-- For some units of time, seconds if the unit is not given. -/
  | after (amount : UInt64) (unit : Option Duration.Unit)
  deriving DecidableEq, Repr

namespace Expiry

def seconds (amount : UInt64) : Expiry := .after amount (some .seconds)

def milliseconds (amount : UInt64) : Expiry := .after amount (some .milliseconds)

/-- Expiry after a duration: in seconds if they are whole, else in milliseconds, rounded up, as many
as a word holds. -/
def ofDuration (d : Duration) : Expiry :=
  if d.nanos = 0 then seconds d.seconds
  else milliseconds (UInt64.ofNat (min ((d.totalNanos + 999_999) / 1_000_000) (UInt64.size - 1)))

def isNever (e : Expiry) : Bool := e = .never

/-- The number of units, if the key expires. -/
def amount? : Expiry → Option UInt64
  | .never => none
  | .after amount _ => some amount

/-- The unit that counts. -/
def unit : Expiry → Duration.Unit
  | .never => default
  | .after _ unit => unit.getD default

/-- The time until the key expires. -/
def duration? (e : Expiry) : Option Duration :=
  e.amount?.map fun amount =>
    match e.unit with
    | .seconds => .ofSeconds amount
    | .milliseconds => .ofMilliseconds amount

/-- The word in front of the amount; nothing where there is no amount. -/
def flag : Option Expiry → Bytes
  | none | some .never => []
  | some e =>
    match e.unit with
    | .seconds => Token.ex.bytes
    | .milliseconds => Token.px.bytes

end Expiry

/-- The condition under which a key is written. -/
inductive WriteCondition where
  /-- In any case. -/
  | always
  /-- Only if there is no such key. -/
  | ifAbsent
  /-- Only if there is such a key. -/
  | ifPresent
  deriving DecidableEq, Repr

/-- A key is written in any case unless something else is asked for. -/
instance : Inhabited WriteCondition := ⟨.always⟩

/-- The word for a condition; nothing where there is none. -/
def WriteCondition.flag : WriteCondition → Bytes
  | .always => []
  | .ifAbsent => Token.nx.bytes
  | .ifPresent => Token.xx.bytes

/-- The arguments of SET behind the value: flag and amount of the expiry, then the condition. -/
def setArguments (expiry : Option Expiry) (condition : WriteCondition) : Arguments :=
  let args := match expiry.bind Expiry.amount? with
    | some amount => Arguments.empty.extend [Expiry.flag expiry, Encoding.natural amount.toNat]
    | none => .empty
  if condition.flag.isEmpty then args else args.push condition.flag

end RespWire
