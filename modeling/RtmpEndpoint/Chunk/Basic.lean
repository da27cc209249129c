import RtmpEndpoint.Message.Basic
import RtmpEndpoint.Table

/-!
# Chunks

A message travels as one or more chunks of a chunk stream. A chunk opens with a basic header (its
format and chunk stream id), a message header whose length depends on the format, an extended
timestamp if three bytes were too few, and its share of the body.
-/

namespace RtmpEndpoint.Chunk

/-- The chunk formats of the protocol. Each leaves out more of what the previous header on the
chunk stream already said. -/
inductive Format where
  /-- Absolute timestamp, length, type and message stream id. -/
  | type0
  /-- Timestamp delta, length and type. -/
  | type1
  /-- Timestamp delta. -/
  | type2
  /-- Nothing. -/
  | type3
  deriving DecidableEq, Repr

namespace Format

def code : Format → Nat
  | type0 => 0
  | type1 => 1
  | type2 => 2
  | type3 => 3

/-- The format in the top two bits of a basic header. -/
def ofByte (b : UInt8) : Format :=
  match b.toNat / 64 with
  | 0 => type0
  | 1 => type1
  | 2 => type2
  | _ => type3

def bits (format : Format) : UInt8 := UInt8.ofNat (64 * format.code)

/-- Bytes of the message header. -/
def headerSize : Format → Nat
  | type0 => 11
  | type1 => 7
  | type2 => 3
  | type3 => 0

end Format

def minStreamId : UInt32 := 2
def maxStreamId : UInt32 := 65599

/-- The chunk stream of protocol control and connection traffic. -/
def controlStreamId : UInt32 := 2

/-- A body longer than this does not fit the length field. -/
def maxMessageLength : Nat := 0xffffff

/-- The three byte timestamp field that announces a four byte one. -/
def extendedMarker : UInt32 := 0xffffff

/-- How many body bytes a chunk may carry. The announcing message has 31 bits for it. -/
structure Size where
  value : Nat
  pos : 0 < value
  le : value ≤ 0x7fffffff
  deriving DecidableEq, Repr

def Size.ofNat? (n : Nat) : Option Size :=
  if h : 0 < n ∧ n ≤ 0x7fffffff then some ⟨n, h.1, h.2⟩ else none

/-- What both sides assume until told otherwise. -/
def Size.initial : Size := ⟨128, by decide, by decide⟩

/-- The resolved header of the last chunk on a chunk stream. -/
structure Header where
  timestamp : Timestamp
  length : Nat
  tag : Message.Tag
  streamId : UInt32
  /-- The timestamp quantity of the last header that was not of type 3: absolute for type 0, a
  delta for types 1 and 2. -/
  timestampField : UInt32
  deriving DecidableEq, Repr, Inhabited

namespace Header

def blank : Header := ⟨.zero, 0, ⟨0⟩, 0, 0⟩

def isExtended (header : Header) : Bool := extendedMarker ≤ header.timestampField

/-- The four byte timestamp field, when three bytes are too few. -/
def extension (header : Header) : Bytes :=
  if header.isExtended then Bytes.ofUInt32 header.timestampField else []

/-- The fields that the format does not leave out. -/
def fields (header : Header) (format : Format) : Bytes :=
  let time := Bytes.ofNat 3 (min header.timestampField extendedMarker).toNat
  let kind := Bytes.ofNat 3 header.length ++ [header.tag.id]
  match format with
  | .type0 => time ++ kind ++ Bytes.ofUInt32Reversed header.streamId
  | .type1 => time ++ kind
  | .type2 => time
  | .type3 => []

end Header

/-- The basic header, in the shortest form that holds the chunk stream id. -/
def basicHeader (format : Format) (csid : UInt32) : Bytes :=
  let n := csid.toNat
  if n < 64 then [UInt8.ofNat (64 * format.code + n)]
  else if n < 320 then [format.bits, UInt8.ofNat (n - 64)]
  else [UInt8.ofNat (64 * format.code + 1), UInt8.ofNat ((n - 64) % 256),
    UInt8.ofNat ((n - 64) / 256)]

/-- The format, the chunk stream id and the length of the basic header at the front, once it is
there as a whole. -/
def readBasicHeader? : Bytes → Option (Format × UInt32 × Nat)
  | [] => none
  | first :: rest =>
    match first.toNat % 64, rest with
    | 0, second :: _ => some (.ofByte first, UInt32.ofNat (second.toNat + 64), 2)
    | 1, second :: third :: _ =>
      some (.ofByte first, UInt32.ofNat (third.toNat * 256 + second.toNat + 64), 3)
    | 0, _ => none
    | 1, _ => none
    | csid, _ => some (.ofByte first, UInt32.ofNat csid, 1)

theorem readBasicHeader?_length {bytes : Bytes} {format : Format} {csid : UInt32} {n : Nat}
    (h : readBasicHeader? bytes = some (format, csid, n)) : 0 < n ∧ n ≤ bytes.length := by
  unfold readBasicHeader? at h
  split at h
  · cases h
  · split at h <;> simp at h <;> obtain ⟨-, -, rfl⟩ := h <;> simp

end RtmpEndpoint.Chunk
