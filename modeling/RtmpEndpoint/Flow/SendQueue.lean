import RtmpEndpoint.Chunk.Splitter
import RtmpEndpoint.Flow.Window
import RtmpEndpoint.Transition

/-!
# The send queue

Everything a connection sends waits here for the writer. All chunks of a message are queued at
once, so messages are never interleaved and a new chunk size takes effect right after the message
that announces it.
-/

namespace RtmpEndpoint.Flow

inductive SendError where
  | split (error : Chunk.SplitError)
  | closed
  deriving DecidableEq, Repr

def SendError.message : SendError → String
  | split error => "Failed to split an outbound message into chunks: " ++ error.message
  | closed => "The session has been closed"

/-- One write. The last chunk of a message carries the number of its completion. -/
structure QueuedChunk where
  bytes : Bytes
  completion : Option Nat
  deriving DecidableEq, Repr

/-- What has become of a completion. -/
inductive Completion where
  | pending
  | done
  /-- Its chunk will never be written. -/
  | abandoned
  deriving DecidableEq, Repr

structure SendQueue where
  splitter : Chunk.Splitter := {}
  /-- Not yet taken by the writer, oldest first. -/
  chunks : List QueuedChunk := []
  isOpen : Bool := true
  counter : WriteCounter := {}
  /-- How many messages were queued, which is the number of the next completion. -/
  messages : Nat := 0
  done : List Nat := []
  abandoned : List Nat := []

namespace SendQueue

/-- The chunks of a message, the last one with its completion. -/
def withCompletion (completion : Nat) (chunks : List Bytes) : List QueuedChunk :=
  chunks.dropLast.map (⟨·, none⟩) ++ chunks.getLast?.toList.map (⟨·, some completion⟩)

/-- Queues bytes that are not chunked. -/
def sendRaw (bytes : Bytes) : Transition SendQueue SendError Unit := fun q =>
  if q.isOpen then (.ok (), { q with chunks := q.chunks ++ [⟨bytes, none⟩] })
  else (.error .closed, q)

/-- Queues all chunks of a message and numbers its completion. -/
def enqueue (chunks : List Bytes) : Transition SendQueue SendError Nat := fun q =>
  if q.isOpen then
    (.ok q.messages,
      { q with
        chunks := q.chunks ++ withCompletion q.messages chunks
        messages := q.messages + 1 })
  else (.error .closed, q)

/-- Splits a message for chunk stream `csid`. -/
def split (csid : UInt32) (payload : Payload) : Transition SendQueue SendError (List Bytes) :=
  fun q => match q.splitter.split csid payload with
    | .ok (chunks, splitter) => (.ok chunks, { q with splitter })
    | .error error => (.error (.split error), q)

def setMaxSize (size : UInt32) : Transition SendQueue SendError Unit := fun q =>
  match q.splitter.setMaxSize size with
  | .ok splitter => (.ok (), { q with splitter })
  | .error error => (.error (.split error), q)

/-- Queues a message on chunk stream `csid`. -/
def send (csid : UInt32) (payload : Payload) : Transition SendQueue SendError Nat := do
  let chunks ← split csid payload
  enqueue chunks

/-- Queues the announcement of a chunk size at the old one and splits everything later at the new
one. -/
def setChunkSize (size : UInt32) (announcement : Payload) :
    Transition SendQueue SendError Nat := do
  let chunks ← split Chunk.controlStreamId announcement
  setMaxSize size
  enqueue chunks

def chunkSize (q : SendQueue) : Nat := q.splitter.maxSize.value

/-- Hands the oldest `count` chunks to the writer. -/
def take (count : Nat) (q : SendQueue) : List QueuedChunk × SendQueue :=
  (q.chunks.take count, { q with chunks := q.chunks.drop count })

def takeAll (q : SendQueue) : List QueuedChunk × SendQueue := (q.chunks, { q with chunks := [] })

def completionsOf (chunks : List QueuedChunk) : List Nat := chunks.filterMap (·.completion)

/-- Resolves completions whose chunks were written. -/
def complete (q : SendQueue) (completions : List Nat) : SendQueue :=
  { q with done := completions.reverse ++ q.done }

/-- Gives up completions whose chunks will not be written. -/
def abandon (q : SendQueue) (completions : List Nat) : SendQueue :=
  { q with abandoned := completions.reverse ++ q.abandoned }

/-- The writer is gone, and with it what it had not taken. -/
def close (q : SendQueue) : SendQueue :=
  { q.abandon (completionsOf q.chunks) with chunks := [], isOpen := false }

def completion (q : SendQueue) (number : Nat) : Completion :=
  if q.done.contains number then .done
  else if q.abandoned.contains number then .abandoned
  else .pending

end SendQueue

end RtmpEndpoint.Flow
