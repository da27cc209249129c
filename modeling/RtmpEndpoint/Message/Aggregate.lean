import RtmpEndpoint.Message.Body

/-!
# Aggregate messages

An aggregate packs whole messages into one body. Each has a header of 11 bytes (type, length,
timestamp with its high byte last, stream id), a body and a back pointer of 4 bytes, which may be
cut short at the end.
-/

namespace RtmpEndpoint.Message

/-- The header fields of a message inside an aggregate that count. -/
structure SubHeader where
  tag : Tag
  length : Nat
  timestamp : Timestamp

def SubHeader.size : Nat := 11
def backPointerSize : Nat := 4

def SubHeader.ofBytes (header : Bytes) : SubHeader where
  tag := ⟨header.headD 0⟩
  length := Bytes.toNat ((header.drop 1).take 3)
  timestamp := ⟨UInt32.ofNat (Bytes.toNat ((header.drop 7).take 1 ++ (header.drop 4).take 3))⟩

/-- A message inside an aggregate keeps its tag and body. Its timestamp is moved so that the first
one lands on that of the aggregate. Unknown types and nested aggregates are left out. -/
def SubHeader.payload? (header : SubHeader) (outer : Payload) (first : Timestamp)
    (body : Bytes) : Option Payload :=
  if header.tag.isNamed && header.tag != .aggregate then
    some
      { timestamp := outer.timestamp.advance (header.timestamp.since first)
        tag := header.tag
        streamId := outer.streamId
        data := body }
  else none

/-- The messages in the bytes from `offset` on, added to those already `read` (last one first).
`first` is the timestamp of the first message, once there was one. -/
def unpackOnto (outer : Payload) (first : Option Timestamp) (offset : Nat) (read : List Payload)
    (bytes : Bytes) : Except DecodeError (List Payload) :=
  if bytes.isEmpty then .ok read.reverse
  else
    match _hHeader : bytes.split? SubHeader.size with
    | none => .error (.truncatedAggregate offset)
    | some (header, rest) =>
      let header := SubHeader.ofBytes header
      match _hBody : rest.split? header.length with
      | none => .error (.truncatedAggregate offset)
      | some (body, rest) =>
        let first := first.getD header.timestamp
        unpackOnto outer (some first) (offset + SubHeader.size + header.length + backPointerSize)
          ((header.payload? outer first body).toList ++ read) (rest.drop backPointerSize)
termination_by bytes.length
decreasing_by
  have h₁ := Bytes.length_of_split? _hHeader
  have h₂ := Bytes.length_of_split? _hBody
  simp only [SubHeader.size] at h₁
  simp only [List.length_drop]
  omega

/-- The messages of an aggregate, in order. -/
def unpack (aggregate : Payload) : Except DecodeError (List Payload) :=
  unpackOnto aggregate none 0 [] aggregate.data

end RtmpEndpoint.Message
