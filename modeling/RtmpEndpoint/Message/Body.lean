import RtmpEndpoint.Amf0.Decode
import RtmpEndpoint.Message.Basic

/-!
# Message bodies

How each message is laid out as bytes. Protocol control bodies are one big endian number, with a
limit type after that of SetPeerBandwidth; bytes after the expected fields are ignored. Command
and data bodies are AMF0 values. Bodies of other types are carried as they are.
-/

namespace RtmpEndpoint.Message

inductive DecodeError where
  | unexpectedEndOfPayload
  | invalidCommandFormat
  | invalidPeerBandwidthLimitType (limitType : UInt8)
  | unknownUserControlEvent (eventType : Nat)
  | truncatedAggregate (offset : Nat)
  | amf0 (error : Amf0.DecodeError)
  deriving DecidableEq, Repr

def DecodeError.message : DecodeError → String
  | unexpectedEndOfPayload => "Message payload ended before all expected fields were read"
  | invalidCommandFormat =>
    "Command message did not start with a procedure name and transaction id"
  | invalidPeerBandwidthLimitType limitType =>
    "SetPeerBandwidth carried unknown limit type " ++ toString limitType.toNat
  | unknownUserControlEvent eventType =>
    "UserControl carried unknown event type " ++ toString eventType
  | truncatedAggregate offset =>
    "Aggregate sub-message at offset " ++ toString offset
      ++ " runs past the end of the payload"
  | amf0 error => "Failed to read AMF0 values: " ++ error.message

inductive EncodeError where
  | amf0 (error : Amf0.EncodeError)
  deriving DecidableEq, Repr

def EncodeError.message : EncodeError → String
  | amf0 error => "Failed to write AMF0 values: " ++ error.message

/-- A four byte number at the front. -/
def readUInt32 (data : Bytes) : Except DecodeError (UInt32 × Bytes) :=
  match data.number? 4 with
  | some (n, rest) => .ok (UInt32.ofNat n, rest)
  | none => .error .unexpectedEndOfPayload

theorem readUInt32_ofUInt32 (n : UInt32) (rest : Bytes) :
    readUInt32 (Bytes.ofUInt32 n ++ rest) = .ok (n, rest) := by
  rw [readUInt32, Bytes.ofUInt32, Bytes.number?_ofNat n.toNat_lt]
  simp only [UInt32.ofNat_toNat]

/-- A chunk size has 31 bits. -/
def chunkSizeMask : UInt32 := 0x7fffffff

theorem toNat_and_chunkSizeMask (size : UInt32) :
    (size &&& chunkSizeMask).toNat = size.toNat % 0x80000000 := by
  rw [UInt32.toNat_and]
  exact Nat.and_two_pow_sub_one_eq_mod size.toNat 31

/-- Sizes that fit keep their value. -/
theorem and_chunkSizeMask {size : UInt32} (h : size.toNat ≤ 0x7fffffff) :
    size &&& chunkSizeMask = size := by
  apply UInt32.toNat_inj.mp
  rw [toNat_and_chunkSizeMask]
  omega

def limitCode : BandwidthLimit → UInt8
  | .hard => 0
  | .soft => 1
  | .dynamic => 2

def limitOfCode? : UInt8 → Option BandwidthLimit
  | 0 => some .hard
  | 1 => some .soft
  | 2 => some .dynamic
  | _ => none

def encodeEvent (code : Nat) (value : UInt32) : Bytes :=
  Bytes.ofNat 2 code ++ Bytes.ofUInt32 value

def encodeUserControl : UserControl → Bytes
  | .streamBegin streamId => encodeEvent 0 streamId
  | .streamEof streamId => encodeEvent 1 streamId
  | .streamDry streamId => encodeEvent 2 streamId
  | .setBufferLength streamId bufferLength =>
    encodeEvent 3 streamId ++ Bytes.ofUInt32 bufferLength
  | .streamIsRecorded streamId => encodeEvent 4 streamId
  | .pingRequest timestamp => encodeEvent 6 timestamp.ms
  | .pingResponse timestamp => encodeEvent 7 timestamp.ms

/-- The event type and its first field are read before the type is judged. -/
def decodeUserControl (data : Bytes) : Except DecodeError UserControl := do
  match data.number? 2 with
  | none => .error .unexpectedEndOfPayload
  | some (code, rest) =>
    let (value, rest) ← readUInt32 rest
    match code with
    | 0 => return .streamBegin value
    | 1 => return .streamEof value
    | 2 => return .streamDry value
    | 3 =>
      let (bufferLength, _) ← readUInt32 rest
      return .setBufferLength value bufferLength
    | 4 => return .streamIsRecorded value
    | 6 => return .pingRequest ⟨value⟩
    | 7 => return .pingResponse ⟨value⟩
    | _ => .error (.unknownUserControlEvent code)

/-- Leads an AMF3 body and says that AMF0 follows. -/
def formatSelector : ObjectEncoding → Bytes
  | .amf0 => []
  | .amf3 => [0]

/-- The AMF0 part of a body. The format selector of an AMF3 body may be missing. -/
def amf0Part : ObjectEncoding → Bytes → Bytes
  | .amf3, 0 :: rest => rest
  | _, body => body

def encodeValues (encoding : ObjectEncoding) (values : List Amf0.Value) :
    Except EncodeError Bytes :=
  match Amf0.Value.encodeAll values with
  | .ok body => .ok (formatSelector encoding ++ body)
  | .error error => .error (.amf0 error)

def decodeValues (encoding : ObjectEncoding) (data : Bytes) :
    Except DecodeError (List Amf0.Value) :=
  match Amf0.Value.decodeAll (amf0Part encoding data) with
  | .ok values => .ok values
  | .error error => .error (.amf0 error)

/-- A command is its name, its transaction id, its object and its arguments. -/
def commandValues (command : Command) : List Amf0.Value :=
  .text command.name :: .number command.transactionId :: command.object :: command.arguments

/-- The transaction id may be null or missing, which stands for zero, and a missing object is
null. -/
def commandOfValues (encoding : ObjectEncoding) :
    List Amf0.Value → Except DecodeError Command
  | [.text name] => .ok ⟨encoding, name, .zero, .null, []⟩
  | [.text name, .number id] => .ok ⟨encoding, name, id, .null, []⟩
  | [.text name, .null] => .ok ⟨encoding, name, .zero, .null, []⟩
  | .text name :: .number id :: object :: arguments => .ok ⟨encoding, name, id, object, arguments⟩
  | .text name :: .null :: object :: arguments => .ok ⟨encoding, name, .zero, object, arguments⟩
  | _ => .error .invalidCommandFormat

def encodeBody : Message → Except EncodeError Bytes
  | .setChunkSize size => .ok (Bytes.ofUInt32 (size &&& chunkSizeMask))
  | .abort chunkStreamId => .ok (Bytes.ofUInt32 chunkStreamId)
  | .acknowledgement sequenceNumber => .ok (Bytes.ofUInt32 sequenceNumber)
  | .userControl event => .ok (encodeUserControl event)
  | .windowAcknowledgementSize size => .ok (Bytes.ofUInt32 size)
  | .setPeerBandwidth size limit => .ok (Bytes.ofUInt32 size ++ [limitCode limit])
  | .audio body => .ok body
  | .video body => .ok body
  | .command call => encodeValues call.encoding (commandValues call)
  | .data message => encodeValues message.encoding message.values
  | .unknown _ body => .ok body

/-- The tag and the body of a message. -/
def encode (message : Message) : Except EncodeError (Tag × Bytes) :=
  match encodeBody message with
  | .ok body => .ok (message.tag, body)
  | .error error => .error error

/-- The message with this tag and body. -/
def decode (tag : Tag) (data : Bytes) : Except DecodeError Message :=
  match tag with
  | .setChunkSize => do
    let (size, _) ← readUInt32 data
    return .setChunkSize (size &&& chunkSizeMask)
  | .abort => do
    let (chunkStreamId, _) ← readUInt32 data
    return .abort chunkStreamId
  | .acknowledgement => do
    let (sequenceNumber, _) ← readUInt32 data
    return .acknowledgement sequenceNumber
  | .userControl => do
    let event ← decodeUserControl data
    return .userControl event
  | .windowAcknowledgementSize => do
    let (size, _) ← readUInt32 data
    return .windowAcknowledgementSize size
  | .setPeerBandwidth => do
    let (size, rest) ← readUInt32 data
    match rest with
    | [] => .error .unexpectedEndOfPayload
    | code :: _ =>
      match limitOfCode? code with
      | some limit => return .setPeerBandwidth size limit
      | none => .error (.invalidPeerBandwidthLimitType code)
  | .audio => .ok (.audio data)
  | .video => .ok (.video data)
  | .amf0Command => do
    let command ← commandOfValues .amf0 (← decodeValues .amf0 data)
    return .command command
  | .amf3Command => do
    let command ← commandOfValues .amf3 (← decodeValues .amf3 data)
    return .command command
  | .amf0Data => do
    let values ← decodeValues .amf0 data
    return .data ⟨.amf0, values⟩
  | .amf3Data => do
    let values ← decodeValues .amf3 data
    return .data ⟨.amf3, values⟩
  | tag => .ok (.unknown tag data)

end RtmpEndpoint.Message
