import RtmpEndpoint.Flow.SendQueue
import RtmpEndpoint.Message.Body

/-!
# Session errors

What can go wrong with an operation of a session. None of these ends the connection by itself.
-/

namespace RtmpEndpoint

inductive SessionError where
  /-- Every chunk stream id from 3 to 65599 is in use. -/
  | chunkStreamIdsExhausted
  | messageStreamIdsExhausted
  /-- A message stream takes one handler for each message type. -/
  | handlerAlreadyRegistered (streamId : UInt32) (tag : Message.Tag)
  | messageStreamNotFound (streamId : UInt32)
  | encode (error : Message.EncodeError)
  | send (error : Flow.SendError)
  deriving DecidableEq, Repr

def SessionError.message : SessionError → String
  | chunkStreamIdsExhausted => "No chunk stream ids are available"
  | messageStreamIdsExhausted => "No message stream ids are available"
  | handlerAlreadyRegistered streamId tag =>
    "Message stream " ++ toString streamId.toNat ++ " already has a handler for " ++ tag.name
  | messageStreamNotFound streamId =>
    "Message stream " ++ toString streamId.toNat ++ " does not exist"
  | encode error => "Failed to encode an outbound message: " ++ error.message
  | send error => error.message

end RtmpEndpoint
