import RtmpEndpoint.Session.ConnectionInformation
import RtmpEndpoint.Session.Error

/-!
# Procedures

What application code does to the session that called it. A procedure is a tree of operations on
the session, each with a continuation for its answer, so it says what the application does without
saying how a session is kept.
-/

namespace RtmpEndpoint

/-- A stream opened by `createStream`, with the message stream and the chunk stream it travels
on. -/
structure NetStream where
  id : UInt32
  chunkStreamId : UInt32
  deriving DecidableEq, Repr

namespace Application

inductive Operation where
  | connectionId
  | isClosed
  /-- What the client said about itself, once it is connected. -/
  | information
  /-- Bytes written to the peer that it has not acknowledged. -/
  | unacknowledgedBytes
  | writeChunkSize
  | messageStreamIds
  /-- How many chunk stream ids are handed out. -/
  | liveChunkStreams
  | close
  | createNetStream
  | deleteNetStream (id : UInt32)
  | netStream (id : UInt32)
  | createMessageStream
  | removeMessageStream (id : UInt32)
  | allocateChunkStream
  | releaseChunkStream (id : UInt32)
  /-- Sends on the message stream and the chunk stream of a NetStream. -/
  | send (stream : NetStream) (timestamp : Timestamp) (message : Message)
  | sendMessage (csid streamId : UInt32) (timestamp : Timestamp) (message : Message)
  /-- Sends on the control chunk stream and message stream 0. -/
  | sendControl (message : Message)
  | setWriteChunkSize (size : UInt32)
  deriving Repr

/-- What the session answers. When a message that was queued goes out is not known before the
procedure ends. -/
def Operation.Answer : Operation → Type
  | connectionId => Nat
  | isClosed => Bool
  | information => Option ConnectionInformation
  | unacknowledgedBytes => UInt64
  | writeChunkSize => Nat
  | messageStreamIds => List UInt32
  | liveChunkStreams => Nat
  | close => Unit
  | createNetStream => Except SessionError NetStream
  | deleteNetStream _ => Bool
  | netStream _ => Option NetStream
  | createMessageStream => Except SessionError UInt32
  | removeMessageStream _ => Bool
  | allocateChunkStream => Except SessionError UInt32
  | releaseChunkStream _ => Unit
  | send _ _ _ => Except SessionError Unit
  | sendMessage _ _ _ _ => Except SessionError Unit
  | sendControl _ => Except SessionError Unit
  | setWriteChunkSize _ => Except SessionError Unit

inductive Procedure (α : Type) where
  | done (value : α)
  | perform (operation : Operation) (next : operation.Answer → Procedure α)

namespace Procedure

variable {α β : Type}

def andThen (f : α → Procedure β) : Procedure α → Procedure β
  | done value => f value
  | perform operation next => perform operation fun answer => andThen f (next answer)

instance : Monad Procedure where
  pure := done
  bind x f := andThen f x

@[simp] theorem done_bind (value : α) (f : α → Procedure β) : (done value >>= f) = f value := rfl
@[simp] theorem perform_bind (operation : Operation) (next : operation.Answer → Procedure α)
    (f : α → Procedure β) :
    (perform operation next >>= f) = perform operation fun answer => next answer >>= f := rfl

/-! The operations as procedures. -/

def connectionId : Procedure Nat := perform .connectionId done
def unacknowledgedBytes : Procedure UInt64 := perform .unacknowledgedBytes done
def close : Procedure Unit := perform .close done
def createNetStream : Procedure (Except SessionError NetStream) := perform .createNetStream done
def deleteNetStream (id : UInt32) : Procedure Bool := perform (.deleteNetStream id) done
def netStream? (id : UInt32) : Procedure (Option NetStream) := perform (.netStream id) done
def send (stream : NetStream) (timestamp : Timestamp) (message : Message) :
    Procedure (Except SessionError Unit) := perform (.send stream timestamp message) done
def sendControl (message : Message) : Procedure (Except SessionError Unit) :=
  perform (.sendControl message) done
def removeMessageStream (id : UInt32) : Procedure Bool := perform (.removeMessageStream id) done

end Procedure

end Application

end RtmpEndpoint
