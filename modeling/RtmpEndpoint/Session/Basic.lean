import RtmpEndpoint.Application.Controller
import RtmpEndpoint.Session.Config
import RtmpEndpoint.Session.ConnectionInformation
import RtmpEndpoint.Session.Registry

/-!
# Sessions

The serving side of one connection above the chunk layer. A session owns the message streams and
the chunk stream ids of the connection, routes every message to the handler for its type on its
message stream, and queues what is sent.
-/

namespace RtmpEndpoint

/-- What takes the messages of one type on one message stream. -/
inductive Handler where
  /-- The commands of message stream 0. -/
  | netConnection
  /-- Commands, media and data of a NetStream. -/
  | netStream
  | custom (name : String) (handle : Inbound → Application.Procedure (Except SessionError Unit))

structure MessageStream where
  id : UInt32
  handlers : List (Message.Tag × Handler) := []

namespace MessageStream

def handler? (stream : MessageStream) (tag : Message.Tag) : Option Handler :=
  (stream.handlers.find? (·.1 == tag)).map (·.2)

/-- There is one handler for each type. -/
def register (stream : MessageStream) (tag : Message.Tag) (handler : Handler) :
    Except SessionError MessageStream :=
  match stream.handler? tag with
  | some _ => .error (.handlerAlreadyRegistered stream.id tag)
  | none => .ok { stream with handlers := (tag, handler) :: stream.handlers }

/-- The stream on which connection commands come. -/
def control : MessageStream :=
  ⟨controlMessageStreamId, [(.amf0Command, .netConnection), (.amf3Command, .netConnection)]⟩

/-- The types that a NetStream takes. -/
def netStreamTags : List Message.Tag :=
  [.amf0Command, .amf3Command, .audio, .video, .amf0Data, .amf3Data]

def forNetStream (id : UInt32) : MessageStream := ⟨id, netStreamTags.map (·, .netStream)⟩

end MessageStream

/-- The app that a client is connected to. -/
structure ConnectedApp where
  information : ConnectionInformation
  controller : Application.Controller

structure Session where
  connectionId : Nat := 1
  config : Config := {}
  applications : Application.Applications := {}
  queue : Flow.SendQueue := {}
  registry : Registry MessageStream :=
    ({} : Registry MessageStream).insert controlMessageStreamId .control
  netStreams : Table NetStream := .empty
  connection : Option ConnectedApp := none
  /-- A closed session asks for the connection to end. -/
  isClosed : Bool := false
  /-- Calls into the application, the last one first. -/
  calls : List Application.Call := []

namespace Session

abbrev Action (α : Type) := Transition Session SessionError α

def information? (s : Session) : Option ConnectionInformation := s.connection.map (·.information)

def close (s : Session) : Session := { s with isClosed := true }

def note (call : Application.Call) (s : Session) : Session := { s with calls := call :: s.calls }

/-! ## Sending -/

def onQueue {α : Type} (x : Transition Flow.SendQueue Flow.SendError α) : Action α :=
  Transition.focus Session.queue (fun queue s => { s with queue }) .send x

def encode (message : Message) : Action (Message.Tag × Bytes) := fun s =>
  match Message.encode message with
  | .ok encoded => (.ok encoded, s)
  | .error error => (.error (.encode error), s)

/-- Encodes a message and queues it on chunk stream `csid`. -/
def sendMessage (csid streamId : UInt32) (timestamp : Timestamp) (message : Message) :
    Action Nat := do
  let (tag, data) ← encode message
  onQueue (Flow.SendQueue.send csid ⟨timestamp, tag, streamId, data⟩)

def sendControl (message : Message) : Action Nat :=
  sendMessage Chunk.controlStreamId controlMessageStreamId .zero message

/-- Announces a chunk size and splits everything later at it. -/
def setWriteChunkSize (size : UInt32) : Action Nat := do
  let (tag, data) ← encode (.setChunkSize size)
  onQueue (Flow.SendQueue.setChunkSize size ⟨.zero, tag, controlMessageStreamId, data⟩)

/-! ## Streams -/

def allocateChunkStream : Action UInt32 := fun s =>
  match s.registry.allocateChunkStream with
  | some (id, registry) => (.ok id, { s with registry })
  | none => (.error .chunkStreamIdsExhausted, s)

def releaseChunkStream (id : UInt32) (s : Session) : Session :=
  { s with registry := s.registry.releaseChunkStream id }

/-- Adds a message stream under a new id. -/
def addMessageStream (build : UInt32 → MessageStream) : Action UInt32 := fun s =>
  match s.registry.add build with
  | some (id, registry) => (.ok id, { s with registry })
  | none => (.error .messageStreamIdsExhausted, s)

def createMessageStream : Action UInt32 := addMessageStream fun id => { id }

/-- Removes a message stream with its handlers. -/
def removeMessageStream (id : UInt32) (s : Session) : Option MessageStream × Session :=
  let (stream, registry) := s.registry.remove id
  (stream, { s with registry })

def registerHandler (stream : MessageStream) (tag : Message.Tag) (handler : Handler) :
    Action Unit := fun s =>
  match stream.register tag handler with
  | .ok stream => (.ok (), { s with registry := s.registry.insert stream.id stream })
  | .error error => (.error error, s)

def messageStream? (s : Session) (id : UInt32) : Option MessageStream := s.registry.get? id

/-- Takes all handlers off a message stream, if there is one under this id. -/
def clearHandlers (id : UInt32) (s : Session) : Bool × Session :=
  match s.messageStream? id with
  | some stream => (true, { s with registry := s.registry.insert id { stream with handlers := [] } })
  | none => (false, s)

/-- Stores a NetStream. The chunk stream of one that had the same id is given back. -/
def putNetStream (stream : NetStream) (s : Session) : Session :=
  let replaced := s.netStreams.get? stream.id
  let s := { s with netStreams := s.netStreams.insert stream.id stream }
  match replaced with
  | some old => s.releaseChunkStream old.chunkStreamId
  | none => s

/-- Opens a NetStream: a new message stream with a chunk stream of its own. -/
def createNetStream : Action NetStream := fun s =>
  match allocateChunkStream s with
  | (.error error, s) => (.error error, s)
  | (.ok chunkStreamId, s) =>
    match addMessageStream .forNetStream s with
    | (.error error, s) => (.error error, s.releaseChunkStream chunkStreamId)
    | (.ok id, s) =>
      let stream : NetStream := ⟨id, chunkStreamId⟩
      (.ok stream, s.putNetStream stream)

/-- Closes a NetStream and gives its ids back, if one is open under this id. -/
def deleteNetStream (id : UInt32) (s : Session) : Bool × Session :=
  match s.netStreams.get? id with
  | none => (false, s)
  | some stream =>
    let s := { s with netStreams := s.netStreams.erase id }
    let (_, s) := s.removeMessageStream id
    (true, s.releaseChunkStream stream.chunkStreamId)

def netStream? (s : Session) (id : UInt32) : Option NetStream := s.netStreams.get? id

/-- Sends on the message stream and the chunk stream of a NetStream. -/
def sendOn (stream : NetStream) (timestamp : Timestamp) (message : Message) : Action Nat :=
  sendMessage stream.chunkStreamId stream.id timestamp message

/-- Drops every stream and the connection. Message stream ids are not used again. -/
def shutdown (s : Session) : Session :=
  let streams := s.netStreams.values
  let s := { s.close with
    netStreams := .empty, registry := s.registry.clear, connection := none }
  streams.foldl (fun s stream => s.releaseChunkStream stream.chunkStreamId) s

/-! ## Procedures -/

/-- An operation of a fallible action, with the failure as its answer. -/
def attempt {α : Type} (x : Action α) (s : Session) : Except SessionError α × Session := x s

/-- Queues something without keeping its completion. -/
def unawaited (x : Action Nat) : Action Unit := do
  let _ ← x

/-- Carries out one operation of a procedure. -/
def perform (s : Session) : (operation : Application.Operation) → operation.Answer × Session
  | .connectionId => (s.connectionId, s)
  | .isClosed => (s.isClosed, s)
  | .information => (s.information?, s)
  | .unacknowledgedBytes => (s.queue.counter.bytes, s)
  | .writeChunkSize => (s.queue.chunkSize, s)
  | .messageStreamIds => (s.registry.streams.ids, s)
  | .liveChunkStreams => (s.registry.chunkStreamIds.live, s)
  | .close => ((), s.close)
  | .createNetStream => attempt createNetStream s
  | .deleteNetStream id => s.deleteNetStream id
  | .netStream id => (s.netStream? id, s)
  | .createMessageStream => attempt createMessageStream s
  | .removeMessageStream id =>
    let (stream, s) := s.removeMessageStream id
    (stream.isSome, s)
  | .allocateChunkStream => attempt allocateChunkStream s
  | .releaseChunkStream id => ((), s.releaseChunkStream id)
  | .send stream timestamp message => attempt (unawaited (sendOn stream timestamp message)) s
  | .sendMessage csid streamId timestamp message =>
    attempt (unawaited (sendMessage csid streamId timestamp message)) s
  | .sendControl message => attempt (unawaited (sendControl message)) s
  | .setWriteChunkSize size => attempt (unawaited (setWriteChunkSize size)) s

/-- Carries out a procedure to its end. -/
def runProcedure {α : Type} : Application.Procedure α → Session → α × Session
  | .done value, s => (value, s)
  | .perform operation next, s =>
    let (answer, s) := s.perform operation
    runProcedure (next answer) s

/-- Has a controller carry out a command. The reply is still to be sent. -/
def invoke (controller : Application.Controller) (streamId : UInt32) (command : Command)
    (s : Session) : Option Command × Session :=
  let s := s.note (.invoked controller.name streamId command)
  let (outcome, s) := s.runProcedure (controller.invoke streamId command)
  (outcome.reply? command, s)

end Session

end RtmpEndpoint
