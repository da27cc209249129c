import RtmpEndpoint.Chunk.Assembler
import RtmpEndpoint.Flow.ReadSize
import RtmpEndpoint.Handshake
import RtmpEndpoint.Message.Aggregate
import RtmpEndpoint.Session.Dispatch

/-!
# What a peer's messages act on

Protocol control messages set up the connection itself and have to be well formed. User control and
everything that the session routes may be malformed without harm.
-/

namespace RtmpEndpoint

/-- Why a connection stopped. -/
inductive ConnectionError where
  /-- The socket failed: a write found nobody to read it, or a read failed. Whatever else the socket
  may say of its failure is not told apart. -/
  | peerGone
  | handshake (error : Handshake.Error)
  | framing (error : Chunk.AssembleError)
  | control (error : Message.DecodeError)
  | session (error : SessionError)
  deriving DecidableEq, Repr

def ConnectionError.message : ConnectionError → String
  | peerGone => "Socket error: broken pipe"
  | handshake error => "Handshake failed: " ++ error.message
  | framing error => "Chunk framing failed: " ++ error.message
  | control error => "Protocol control message was malformed: " ++ error.message
  | session error => error.message

structure Link where
  window : Flow.Window := {}
  assembler : Chunk.Assembler := {}
  readSize : Flow.ReadSize
  session : Session

namespace Link

abbrev Action (α : Type) := Transition Link ConnectionError α

def onSession {α : Type} (x : Session.Action α) : Action α :=
  Transition.focus Link.session (fun session link => { link with session }) .session x

/-- The peer has acknowledged bytes. -/
def acknowledge (bytes : UInt32) (link : Link) : Link :=
  let queue := link.session.queue
  { link with
    session := { link.session with
      queue := { queue with counter := queue.counter.acknowledge bytes } } }

/-- Bytes of the queue have been written. -/
def countWritten (bytes : Nat) (link : Link) : Link :=
  let queue := link.session.queue
  { link with
    session := { link.session with queue := { queue with counter := queue.counter.add bytes } } }

/-- Follows the peer's chunk size, in reading as well as in asking for bytes. -/
def setReadChunkSize (size : UInt32) : Action Unit := fun link =>
  match link.assembler.setMaxSize size.toNat with
  | .error error => (.error (.framing error), link)
  | .ok assembler =>
    (.ok (), { link with assembler, readSize := link.readSize.setChunk size.toNat })

/-- An accepted bandwidth is answered with the window it sets. -/
def setPeerBandwidth (size : UInt32) (limit : BandwidthLimit) : Action Unit := fun link =>
  match link.window.applyBandwidth size limit with
  | none => (.ok (), link)
  | some window =>
    let answer : Action Unit := do
      let _ ← onSession (Session.sendControl (.windowAcknowledgementSize size))
    answer { link with window }

/-- Applies a protocol control message. Messages of another kind have no effect here. -/
def control : Message → Action Unit
  | .setChunkSize size => setReadChunkSize size
  | .abort chunkStreamId =>
    Transition.update fun link => { link with assembler := link.assembler.abort chunkStreamId }
  | .acknowledgement bytes => Transition.update (acknowledge bytes)
  | .windowAcknowledgementSize size =>
    Transition.update fun link => { link with window := link.window.setReadSize size }
  | .setPeerBandwidth size limit => setPeerBandwidth size limit
  | _ => pure ()

/-- Counts bytes that were read and acknowledges them when the window is full. -/
def recordReceived (bytes : Nat) : Transition Link SessionError Unit := fun link =>
  let (due, window) := link.window.record bytes
  let link := { link with window }
  match due with
  | none => (.ok (), link)
  | some sequenceNumber =>
    match Session.sendControl (.acknowledgement sequenceNumber) link.session with
    | (.ok _, session) => (.ok (), { link with session })
    | (.error error, session) => (.error error, { link with session })

/-- Takes a message that is no aggregate. -/
def deliver (payload : Payload) : Action Unit := fun link =>
  if payload.tag.isProtocolControl then
    match Message.decode payload.tag payload.data with
    | .error error => (.error (.control error), link)
    | .ok message => control message link
  else if payload.tag = .userControl then
    match Message.decode payload.tag payload.data with
    | .ok (.userControl (.pingRequest timestamp)) =>
      let answer : Action Unit := do
        let _ ← onSession (Session.sendControl (.userControl (.pingResponse timestamp)))
      answer link
    | _ => (.ok (), link)
  else (.ok (), { link with session := link.session.dispatch payload })

def deliverAll : List Payload → Action Unit
  | [] => pure ()
  | payload :: rest => do
    deliver payload
    deliverAll rest

/-- Takes a message. An aggregate is taken message by message, and dropped if it is malformed. -/
def receive (payload : Payload) : Action Unit :=
  if payload.tag = .aggregate then
    match Message.unpack payload with
    | .ok messages => deliverAll messages
    | .error _ => pure ()
  else deliver payload

end Link

end RtmpEndpoint
