/-!
# UTF-8

Text and its bytes. Reading is one scan over the bytes that yields a character for each well-formed
sequence and a gap for each maximal ill-formed part. The lossy reader fills the gaps with U+FFFD
and the strict reader refuses them, so the two agree wherever the strict one answers.
-/

namespace RespWire

/-- A string of bytes. -/
abbrev Bytes := List UInt8

namespace Utf8

def encode (text : String) : Bytes := text.toList.flatMap String.utf8EncodeChar

/-- How much of a character a scan has read. -/
inductive Progress where
  /-- Between characters. -/
  | start
  /-- Within a character: the bits read so far, how many bytes are owed after the next one, and
  the least and the greatest value the next one may have. -/
  | partway (payload owed : Nat) (low high : UInt8)
  deriving DecidableEq, Repr

/-- The first byte of a character. Lead bytes of overlong forms and of values above U+10FFFF begin
nothing; the bounds on the second byte exclude the other overlong forms and the surrogates. -/
def lead (b : UInt8) : List (Option Char) × Progress :=
  let value := b.toNat
  if b < 0x80 then ([some (Char.ofNat value)], .start)
  else if b < 0xC2 then ([none], .start)
  else if b < 0xE0 then ([], .partway (value % 32) 0 0x80 0xBF)
  else if b < 0xF0 then
    ([], .partway (value % 16) 1 (if b = 0xE0 then 0xA0 else 0x80) (if b = 0xED then 0x9F else 0xBF))
  else if b < 0xF5 then
    ([], .partway (value % 8) 2 (if b = 0xF0 then 0x90 else 0x80) (if b = 0xF4 then 0x8F else 0xBF))
  else ([none], .start)

/-- One byte: what it completes, and the progress after it. A byte that cannot continue a character
leaves a gap and is then read as a first byte. -/
def step : Progress → UInt8 → List (Option Char) × Progress
  | .start, b => lead b
  | .partway payload owed low high, b =>
    if low ≤ b ∧ b ≤ high then
      let payload := payload * 64 + b.toNat % 64
      match owed with
      | 0 => ([some (Char.ofNat payload)], .start)
      | owed + 1 => ([], .partway payload owed 0x80 0xBF)
    else (none :: (lead b).1, (lead b).2)

/-- What is left of a character when the bytes end. -/
def Progress.flush : Progress → List (Option Char)
  | .start => []
  | .partway .. => [none]

/-- The characters and gaps of the bytes that follow some progress. -/
def scanFrom : Progress → Bytes → List (Option Char)
  | p, [] => p.flush
  | p, b :: bs => (step p b).1 ++ scanFrom (step p b).2 bs

/-- The characters and gaps of a string of bytes, in order. -/
def scan (bytes : Bytes) : List (Option Char) := scanFrom .start bytes

/-- The character that stands for a gap. -/
def replacement : Char := '\uFFFD'

/-- The text of any bytes, a replacement character for every gap. -/
def decodeLossy (bytes : Bytes) : String :=
  String.ofList ((scan bytes).map (·.getD replacement))

/-- The text of bytes without a gap. -/
def decode? (bytes : Bytes) : Option String :=
  if none ∈ scan bytes then none else some (decodeLossy bytes)

/-! A part of a character and a byte that begins none leave one gap each. -/

example : scan [0xE2, 0x82, 0x41, 0xFF] = [none, some 'A', none] := by decide

end Utf8

end RespWire
