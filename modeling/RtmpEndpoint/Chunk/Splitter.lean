import RtmpEndpoint.Chunk.Basic

/-!
# Splitting messages into chunks

The splitter remembers the last header of each chunk stream and writes of the next one only what
differs. The format is chosen once per message; the chunks after the first are continuations.
-/

namespace RtmpEndpoint.Chunk

inductive SplitError where
  | messageTooLong (size : Nat)
  | invalidChunkStreamId (csid : UInt32)
  | invalidMaxChunkSize (size : UInt32)
  deriving DecidableEq, Repr

/-- The text for a chunk size that is out of range, in either direction. -/
def invalidSizeMessage (size : Nat) : String :=
  "Requested an invalid max chunk size of " ++ toString size
    ++ ", it must be between 1 and 2147483647"

def SplitError.message : SplitError → String
  | messageTooLong size =>
    "Message of " ++ toString size ++ " bytes does not fit the 3 byte message length field"
  | invalidChunkStreamId csid =>
    "Chunk stream id " ++ toString csid.toNat
      ++ " is outside of the encodable range 2 to 65599"
  | invalidMaxChunkSize size => invalidSizeMessage size.toNat

/-- The body cut into pieces of `size` bytes, the last one shorter, after those already `cut` (last
one first). An empty body is one empty piece. -/
def piecesOnto (size : Size) (cut : List Bytes) (body : Bytes) : List Bytes :=
  let rest := body.drop size.value
  if _h : rest.isEmpty then (body :: cut).reverse
  else piecesOnto size (body.take size.value :: cut) rest
termination_by body.length
decreasing_by
  have := size.pos
  cases body with
  | nil => simp [rest] at _h
  | cons b body => simp only [List.length_drop, List.length_cons]; omega

def pieces (size : Size) (body : Bytes) : List Bytes := piecesOnto size [] body

structure Splitter where
  maxSize : Size := .initial
  headers : Table Header := .empty

namespace Splitter

/-- The format for a message after `previous`, and the timestamp quantity that goes with it. Stream
ids are never left out of a header that changes them, and a delta cannot go back in time. A type 3
header repeats the quantity of the header it copies. -/
def format (previous : Option Header) (payload : Payload) : Format × UInt32 :=
  match previous with
  | none => (.type0, payload.timestamp.ms)
  | some previous =>
    if previous.streamId ≠ payload.streamId ∨ payload.timestamp.isBefore previous.timestamp then
      (.type0, payload.timestamp.ms)
    else
      let delta := payload.timestamp.since previous.timestamp
      if previous.tag ≠ payload.tag ∨ previous.length ≠ payload.data.length then (.type1, delta)
      else if payload.timestamp ≠ previous.timestamp then (.type2, delta)
      else (.type3, previous.timestampField)

/-- The chunks of a message with this header. -/
def chunks (csid : UInt32) (format : Format) (header : Header) :
    (pieces : List Bytes) → List Bytes
  | [] => []
  | first :: more =>
    (basicHeader format csid ++ header.fields format ++ header.extension ++ first)
      :: more.map (basicHeader .type3 csid ++ header.extension ++ ·)

/-- The chunks of a message on chunk stream `csid`. -/
def split (splitter : Splitter) (csid : UInt32) (payload : Payload) :
    Except SplitError (List Bytes × Splitter) :=
  let length := payload.data.length
  if csid < minStreamId ∨ maxStreamId < csid then .error (.invalidChunkStreamId csid)
  else if maxMessageLength < length then .error (.messageTooLong length)
  else
    let (format, field) := format (splitter.headers.get? csid) payload
    let header := ⟨payload.timestamp, length, payload.tag, payload.streamId, field⟩
    .ok (chunks csid format header (pieces splitter.maxSize payload.data),
      { splitter with headers := splitter.headers.insert csid header })

/-- The chunks of each message in turn. -/
def splitAll (splitter : Splitter) :
    List (UInt32 × Payload) → Except SplitError (List (List Bytes) × Splitter)
  | [] => .ok ([], splitter)
  | (csid, payload) :: rest =>
    match splitter.split csid payload with
    | .error error => .error error
    | .ok (chunks, splitter) =>
      match splitter.splitAll rest with
      | .error error => .error error
      | .ok (more, splitter) => .ok (chunks :: more, splitter)

/-- Splits everything later at `size`. -/
def setMaxSize (splitter : Splitter) (size : UInt32) : Except SplitError Splitter :=
  match Size.ofNat? size.toNat with
  | some size => .ok { splitter with maxSize := size }
  | none => .error (.invalidMaxChunkSize size)

end Splitter

end RtmpEndpoint.Chunk
