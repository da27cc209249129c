import RtmpEndpoint.Amf0.Value
import RtmpEndpoint.Bytes
import RtmpEndpoint.Message.Tag
import RtmpEndpoint.Timestamp

/-!
# Messages

A payload is what the chunk layer carries: a resolved header and an opaque body. A message is what
a body means.
-/

namespace RtmpEndpoint

structure Payload where
  timestamp : Timestamp
  tag : Message.Tag
  streamId : UInt32
  data : Bytes
  deriving DecidableEq, Repr, Inhabited

/-- How a peer limits the bandwidth it wants to receive at. -/
inductive BandwidthLimit where
  | hard
  | soft
  | dynamic
  deriving DecidableEq, Repr

/-- The object encoding that a command or data message announces. An AMF3 body is AMF0 behind a
format selector byte. -/
inductive ObjectEncoding where
  | amf0
  | amf3
  deriving DecidableEq, Repr

inductive UserControl where
  | streamBegin (streamId : UInt32)
  | streamEof (streamId : UInt32)
  | streamDry (streamId : UInt32)
  | setBufferLength (streamId bufferLength : UInt32)
  | streamIsRecorded (streamId : UInt32)
  | pingRequest (timestamp : Timestamp)
  | pingResponse (timestamp : Timestamp)
  deriving DecidableEq, Repr

/-- A remote procedure call, or the reply to one. -/
structure Command where
  encoding : ObjectEncoding
  name : String
  transactionId : Binary64
  object : Amf0.Value
  arguments : List Amf0.Value
  deriving Repr

structure DataMessage where
  encoding : ObjectEncoding
  values : List Amf0.Value
  deriving Repr

inductive Message where
  | setChunkSize (size : UInt32)
  | abort (chunkStreamId : UInt32)
  | acknowledgement (sequenceNumber : UInt32)
  | userControl (event : UserControl)
  | windowAcknowledgementSize (size : UInt32)
  | setPeerBandwidth (size : UInt32) (limit : BandwidthLimit)
  | audio (data : Bytes)
  | video (data : Bytes)
  | command (command : Command)
  | data (message : DataMessage)
  | unknown (tag : Message.Tag) (data : Bytes)
  deriving Repr

namespace Command

def result (transactionId : Binary64) (object value : Amf0.Value) : Command :=
  ⟨.amf0, "_result", transactionId, object, [value]⟩

/-- The reply to a call that failed carries a status of level `error`. -/
def error (transactionId : Binary64) (code description : String) : Command :=
  ⟨.amf0, "_error", transactionId, .null, [.status "error" code description]⟩

end Command

def Message.tag : Message → Message.Tag
  | .setChunkSize _ => .setChunkSize
  | .abort _ => .abort
  | .acknowledgement _ => .acknowledgement
  | .userControl _ => .userControl
  | .windowAcknowledgementSize _ => .windowAcknowledgementSize
  | .setPeerBandwidth _ _ => .setPeerBandwidth
  | .audio _ => .audio
  | .video _ => .video
  | .command { encoding := .amf0, .. } => .amf0Command
  | .command { encoding := .amf3, .. } => .amf3Command
  | .data { encoding := .amf0, .. } => .amf0Data
  | .data { encoding := .amf3, .. } => .amf3Data
  | .unknown tag _ => tag

/-- A message together with the header fields its handler may need. -/
structure Inbound where
  timestamp : Timestamp
  streamId : UInt32
  message : Message
  deriving Repr

end RtmpEndpoint
