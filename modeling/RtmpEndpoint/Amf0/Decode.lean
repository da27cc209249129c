import RtmpEndpoint.Amf0.Encode

/-!
# Reading AMF0

Reading takes a value off the front of the bytes and gives the rest back. ECMA arrays read as
objects, dates as numbers and long strings as text. Objects and arrays may be nested 64 deep.

The loops over elements and properties are handed the reader of a nested value, which allows one
level less. Each property takes at least one byte, so the bytes at hand bound their number.
-/

namespace RtmpEndpoint.Amf0

inductive DecodeError where
  | unknownMarker (marker : UInt8)
  | unexpectedEmptyObjectPropertyName
  | nestingTooDeep (limit : Nat)
  | unexpectedEof
  | invalidUtf8 (fault : Utf8.Fault)
  deriving DecidableEq, Repr

/-- Two lower case digits in base 16. -/
def hexByte (b : UInt8) : String :=
  String.ofList [Nat.digitChar (b.toNat / 16), Nat.digitChar (b.toNat % 16)]

def DecodeError.message : DecodeError → String
  | unknownMarker marker => "Encountered unknown AMF0 marker 0x" ++ hexByte marker
  | unexpectedEmptyObjectPropertyName =>
    "Empty object property name was not followed by an object end marker"
  | nestingTooDeep limit =>
    "Objects and arrays are nested more than " ++ toString limit ++ " levels deep"
  | unexpectedEof => "Byte buffer ended in the middle of a value"
  | invalidUtf8 fault => "String was not valid utf8: " ++ fault.message

/-- Objects and arrays nested deeper than this are refused. -/
def maxNesting : Nat := 64

/-! A reader answers what it read and the bytes after it. -/

/-- A computation that succeeds does so in each of its parts. -/
theorem bind_eq_ok {ε α β : Type} {x : Except ε α} {f : α → Except ε β} {b : β} :
    x >>= f = .ok b ↔ ∃ a, x = .ok a ∧ f a = .ok b := by
  cases x <;> simp [bind, Except.bind]

/-- A number of `width` bytes. -/
def readNat (width : Nat) (bytes : Bytes) : Except DecodeError (Nat × Bytes) :=
  match bytes.number? width with
  | some answer => .ok answer
  | none => .error .unexpectedEof

def readByte : Bytes → Except DecodeError (UInt8 × Bytes)
  | [] => .error .unexpectedEof
  | b :: rest => .ok (b, rest)

/-- Text of `length` bytes. Missing bytes are found before ill-formed ones. -/
def readText (length : Nat) (bytes : Bytes) : Except DecodeError (String × Bytes) :=
  match bytes.split? length with
  | none => .error .unexpectedEof
  | some (front, rest) =>
    match Utf8.decode front with
    | .ok text => .ok (text, rest)
    | .error fault => .error (.invalidUtf8 fault)

/-- `count` marked values, added to those already `read` (last one first). -/
def readElements (nested : UInt8 → Bytes → Except DecodeError (Value × Bytes)) :
    Nat → List Value → Bytes → Except DecodeError (List Value × Bytes)
  | 0, read, bytes => .ok (read.reverse, bytes)
  | count + 1, read, bytes => do
    let (marker, bytes) ← readByte bytes
    let (value, bytes) ← nested marker bytes
    readElements nested count (value :: read) bytes

/-- Properties up to the end marker, added to those already `read`. `bound` is at least as long as
the bytes, and only its length matters. -/
def readProperties (nested : UInt8 → Bytes → Except DecodeError (Value × Bytes)) :
    (bound : Bytes) → Properties → Bytes → Except DecodeError (Properties × Bytes)
  | bound, read, bytes => do
    let (length, bytes) ← readNat 2 bytes
    if length = 0 then
      let (marker, bytes) ← readByte bytes
      if marker = Marker.objectEnd then return (read, bytes)
      else .error .unexpectedEmptyObjectPropertyName
    else
      let (name, bytes) ← readText length bytes
      let (marker, bytes) ← readByte bytes
      let (value, bytes) ← nested marker bytes
      match bound with
      | [] => .error .unexpectedEof
      | _ :: bound => readProperties nested bound (read.insert name value) bytes

/-- The body of the value that `marker` announces, which may have `levels` levels, itself
included. -/
def readMarked : (levels : Nat) → UInt8 → Bytes → Except DecodeError (Value × Bytes)
  | 0, _, _ => .error (.nestingTooDeep maxNesting)
  | levels + 1, marker, bytes =>
    if marker = Marker.number then do
      let (bits, bytes) ← readNat 8 bytes
      return (.number ⟨UInt64.ofNat bits⟩, bytes)
    else if marker = Marker.boolean then do
      let (flag, bytes) ← readByte bytes
      return (.boolean (flag != 0), bytes)
    else if marker = Marker.text then do
      let (length, bytes) ← readNat 2 bytes
      let (text, bytes) ← readText length bytes
      return (.text text, bytes)
    else if marker = Marker.longText then do
      let (length, bytes) ← readNat 4 bytes
      let (text, bytes) ← readText length bytes
      return (.text text, bytes)
    else if marker = Marker.object then do
      let (properties, bytes) ← readProperties (readMarked levels) bytes [] bytes
      return (.object properties, bytes)
    else if marker = Marker.ecmaArray then do
      -- The count is advisory: the properties end with an end marker all the same.
      let (_, bytes) ← readNat 4 bytes
      let (properties, bytes) ← readProperties (readMarked levels) bytes [] bytes
      return (.object properties, bytes)
    else if marker = Marker.strictArray then do
      let (count, bytes) ← readNat 4 bytes
      let (values, bytes) ← readElements (readMarked levels) count [] bytes
      return (.array values, bytes)
    else if marker = Marker.date then do
      let (bits, bytes) ← readNat 8 bytes
      let (_, bytes) ← readNat 2 bytes
      return (.number ⟨UInt64.ofNat bits⟩, bytes)
    else if marker = Marker.null then .ok (.null, bytes)
    else if marker = Marker.undefined then .ok (.undefined, bytes)
    else .error (.unknownMarker marker)

namespace Value

/-- The value at the front of the bytes and what follows it; nothing when no byte is left. -/
def decode : Bytes → Except DecodeError (Option (Value × Bytes))
  | [] => .ok none
  | marker :: bytes => do
    let answer ← readMarked (maxNesting + 1) marker bytes
    return some answer

/-- Every value in the bytes, added to those already `read` (last one first). `bound` is at least
as long as the bytes, and only its length matters. -/
def decodeOnto : (bound : Bytes) → List Value → Bytes → Except DecodeError (List Value)
  | bound, read, bytes => do
    match ← decode bytes with
    | none => return read.reverse
    | some (value, rest) =>
      match bound with
      | [] => .error .unexpectedEof
      | _ :: bound => decodeOnto bound (value :: read) rest

/-- Every value in the bytes. -/
def decodeAll (bytes : Bytes) : Except DecodeError (List Value) := decodeOnto bytes [] bytes

end Value

end RtmpEndpoint.Amf0
