import RtmpEndpoint.Amf0.Value
import RtmpEndpoint.Utf8

/-!
# Writing AMF0

A value is written as a marker byte and its body. Text of more than 65535 bytes takes the long
string marker. Objects end with an empty name and the object end marker.
-/

namespace RtmpEndpoint.Amf0

namespace Marker

def number : UInt8 := 0x00
def boolean : UInt8 := 0x01
def text : UInt8 := 0x02
def object : UInt8 := 0x03
def null : UInt8 := 0x05
def undefined : UInt8 := 0x06
def ecmaArray : UInt8 := 0x08
def objectEnd : UInt8 := 0x09
def strictArray : UInt8 := 0x0a
def date : UInt8 := 0x0b
def longText : UInt8 := 0x0c

end Marker

inductive EncodeError where
  | propertyNameTooLong (length : Nat)
  | arrayTooLong (length : Nat)
  deriving DecidableEq, Repr

def EncodeError.message : EncodeError → String
  | propertyNameTooLong length =>
    "Object property name is " ++ toString length ++ " bytes long, the limit is 65535"
  | arrayTooLong length =>
    "Array has " ++ toString length ++ " entries which exceeds the u32 length prefix"

namespace Value

/-- Text with its marker and length. -/
def encodeText (value : String) : Bytes :=
  let bytes := Utf8.encode value
  let length := bytes.length
  if 65535 < length then Marker.longText :: (Bytes.ofNat 4 length ++ bytes)
  else Marker.text :: (Bytes.ofNat 2 length ++ bytes)

/-- A property name with its length and no marker. -/
def encodeName (name : String) : Bytes :=
  let bytes := Utf8.encode name
  Bytes.ofNat 2 bytes.length ++ bytes

/-- The end of an object: an empty name and its marker. -/
def propertiesEnd : Bytes := [0, 0, Marker.objectEnd]

mutual

/-- The first part of a value, in the order of writing, whose length has no room. -/
def fault? : Value → Option EncodeError
  | object properties => faultOfProperties? properties
  | array values =>
    let length := values.length
    if 0xffffffff < length then some (.arrayTooLong length) else faultOfAll? values
  | number _ | boolean _ | text _ | null | undefined => none
termination_by structural value => value

def faultOfProperties? : List (String × Value) → Option EncodeError
  | [] => none
  | (name, value) :: rest =>
    let length := (Utf8.encode name).length
    if 65535 < length then some (.propertyNameTooLong length)
    else (fault? value).or (faultOfProperties? rest)
termination_by structural properties => properties

def faultOfAll? : List Value → Option EncodeError
  | [] => none
  | value :: rest => (fault? value).or (faultOfAll? rest)
termination_by structural values => values

end

mutual

/-- Writes a value in front of `rest`, as if every length had room. -/
def prepend : Value → Bytes → Bytes
  | number value, rest => Marker.number :: (Bytes.ofUInt64 value.bits ++ rest)
  | boolean value, rest => Marker.boolean :: (if value then 1 else 0) :: rest
  | text value, rest => encodeText value ++ rest
  | object properties, rest => Marker.object :: prependProperties properties rest
  | array values, rest =>
    Marker.strictArray :: (Bytes.ofNat 4 values.length ++ prependAll values rest)
  | null, rest => Marker.null :: rest
  | undefined, rest => Marker.undefined :: rest
termination_by structural value => value

def prependProperties : List (String × Value) → Bytes → Bytes
  | [], rest => propertiesEnd ++ rest
  | (name, value) :: properties, rest =>
    encodeName name ++ prepend value (prependProperties properties rest)
termination_by structural properties => properties

/-- Values back to back. -/
def prependAll : List Value → Bytes → Bytes
  | [], rest => rest
  | value :: values, rest => prepend value (prependAll values rest)
termination_by structural values => values

end

/-- The bytes of values back to back, if every length in them has room. -/
def encodeAll (values : List Value) : Except EncodeError Bytes :=
  match faultOfAll? values with
  | some error => .error error
  | none => .ok (prependAll values [])

def encode (value : Value) : Except EncodeError Bytes := encodeAll [value]

end Value

end RtmpEndpoint.Amf0
