import RtmpEndpoint.Connection.Receiver

/-!
# Connections

Three loops serve a connection. The reader asks the socket for as many bytes as the read size allows
when it asks, takes what comes and hands it over to the receiver. The receiver takes the reads in
order. The writer takes what is queued, writes it and flushes it before it takes more. The socket can
fail any of this. A loop that stops closes the session, and a closed session stops the loops.

An event is the least that one of the loops does at once. Which of the possible events comes next
is not said here.
-/

namespace RtmpEndpoint

/-- The way to the peer. -/
structure Outbox where
  capacity : Nat
  /-- The peer will never read again. -/
  isBroken : Bool := false
  /-- What the peer has not read. -/
  written : Buffer := .empty

def Outbox.write (outbox : Outbox) (bytes : Bytes) : Outbox :=
  { outbox with written := outbox.written.push bytes }

inductive Reader where
  | ready
  /-- A read of at most this many bytes waits for the socket. What the receiver does in the meantime
  does not change its size. -/
  | asking (size : Nat)
  /-- A read waits for room in front of the receiver. -/
  | holding (bytes : Bytes)
  | stopped
  /-- A read failed. -/
  | failed

def Reader.hasStopped : Reader → Bool
  | .stopped | .failed => true
  | _ => false

/-- What the writer has taken and not flushed. -/
structure Batch where
  /-- Still to be written. What is left of a chunk stands first. -/
  chunks : List Flow.QueuedChunk
  written : Nat := 0
  /-- The completions of the chunks that were written, the last one first. -/
  completions : List Nat := []

inductive Writer where
  | idle
  | writing (batch : Batch)
  | stopped
  /-- A write or a flush found that the peer was gone. -/
  | failed

namespace Writer

/-- The completions of what has been taken and not flushed. -/
def completions : Writer → List Nat
  | writing batch => batch.completions.reverse ++ Flow.SendQueue.completionsOf batch.chunks
  | _ => []

def hasStopped : Writer → Bool
  | stopped | failed => true
  | _ => false

end Writer

structure Connection where
  /-- What the peer has sent and the reader has not taken. -/
  inbox : Bytes := []
  /-- The peer sends no more. -/
  isEnded : Bool := false
  outbox : Outbox
  reader : Reader := .ready
  /-- Reads that wait for the receiver, in order. -/
  reads : List Bytes := []
  receiver : Receiver
  /-- How the receiver stopped. -/
  outcome : Option (Except ConnectionError Unit) := none
  writer : Writer := .idle
  isFinished : Bool := false

namespace Connection

inductive Event where
  /-- A read begins. -/
  | ask
  /-- The socket gives the reader this many bytes. None at all say that there will be no more. -/
  | read (count : Nat)
  /-- The socket fails a read. It may do so at any time, and need not say why. -/
  | failRead
  | handOver
  | receive
  /-- The writer takes this many chunks off the queue. -/
  | gather (count : Nat)
  /-- The socket takes this many bytes of the first chunk of the batch. -/
  | write (count : Nat)
  | flush
  /-- A write or a flush fails because the peer is gone. -/
  | fail
  | stopReader
  | stopReceiver
  | stopWriter
  /-- All loops have stopped. -/
  | finish
  deriving DecidableEq, Repr

/-- A connection that has just been accepted. -/
def accept (session : Session) (nonce : Nonce) (capacity : Nat) : Connection where
  outbox := { capacity }
  receiver :=
    { phase := .handshaking { nonce }
      link :=
        { readSize := ⟨session.config.handshakeReadSize, Chunk.Size.initial.value, false⟩
          session } }

def session (c : Connection) : Session := c.receiver.link.session
def queue (c : Connection) : Flow.SendQueue := c.session.queue
def readSize (c : Connection) : Nat := c.receiver.link.readSize.next

/-- How many bytes the read that is going on asks for. -/
def requested (c : Connection) : Nat :=
  match c.reader with
  | .asking size => size
  | _ => 0

/-- How many reads may wait. There is always room for one. -/
def depth (c : Connection) : Nat := max c.session.config.inboundQueueDepth 1

def setSession (session : Session) (c : Connection) : Connection :=
  { c with receiver := { c.receiver with link := { c.receiver.link with session } } }

def setQueue (queue : Flow.SendQueue) (c : Connection) : Connection :=
  c.setSession { c.session with queue }

/-- Closes the session, which stops the loops. -/
def cancel (c : Connection) : Connection := c.setSession c.session.close

def isCancelled (c : Connection) : Bool := c.session.isClosed

/-! ## What the peer does -/

def arrive (bytes : Bytes) (c : Connection) : Connection := { c with inbox := c.inbox ++ bytes }
def endInput (c : Connection) : Connection := { c with isEnded := true }

/-- The peer is gone: it neither sends nor reads any more. -/
def leave (c : Connection) : Connection :=
  { c.endInput with outbox := { c.outbox with isBroken := true } }

/-- The peer reads all that has been written. -/
def takeWritten (c : Connection) : Bytes × Connection :=
  (c.outbox.written.bytes, { c with outbox := { c.outbox with written := .empty } })

/-! ## What the loops do -/

def ask (c : Connection) : Option Connection :=
  match c.reader with
  | .ready => some { c with reader := .asking c.readSize }
  | _ => none

/-- An empty read means the end of the input, also if it is empty because nothing was asked for. -/
def read (count : Nat) (c : Connection) : Option Connection :=
  match c.reader with
  | .asking size =>
    if count = 0 then
      if size = 0 ∨ (c.inbox.isEmpty ∧ c.isEnded) then some { c.cancel with reader := .stopped }
      else none
    else if count ≤ size then
      match c.inbox.split? count with
      | some (bytes, inbox) => some { c with inbox, reader := .holding bytes }
      | none => none
    else none
  | _ => none

def failRead (c : Connection) : Option Connection :=
  match c.reader with
  | .asking _ => some { c.cancel with reader := .failed }
  | _ => none

/-- A read waits until there is room. With no receiver to take it the reader stops. -/
def handOver (c : Connection) : Option Connection :=
  match c.reader with
  | .holding bytes =>
    if c.outcome.isSome then some { c.cancel with reader := .stopped }
    else if c.reads.length < c.depth then
      some { c with reads := c.reads ++ [bytes], reader := .ready }
    else none
  | _ => none

def stopReader (c : Connection) : Option Connection :=
  if c.isCancelled && !c.reader.hasStopped then some { c with reader := .stopped } else none

/-- Whether the session is closed is looked at after a whole read. -/
def receive (c : Connection) : Option Connection :=
  match c.outcome, c.reads with
  | none, bytes :: reads =>
    match Receiver.process bytes c.receiver with
    | (.error error, receiver) =>
      some (cancel { c with reads, receiver, outcome := some (.error error) })
    | (.ok (), receiver) =>
      let outcome := if receiver.link.session.isClosed then some (.ok ()) else none
      some { c with reads, receiver, outcome }
  | _, _ => none

def stopReceiver (c : Connection) : Option Connection :=
  if c.outcome.isNone && (c.isCancelled || c.reads.isEmpty && c.reader.hasStopped) then
    some { c.cancel with outcome := some (.ok ()) }
  else none

def gather (count : Nat) (c : Connection) : Option Connection :=
  match c.writer with
  | .idle =>
    if 0 < count ∧ count ≤ c.queue.chunks.length then
      let (chunks, queue) := c.queue.take count
      some ({ c with writer := .writing { chunks } }.setQueue queue)
    else none
  | _ => none

/-- Nothing is asked of the socket for an empty chunk, so it goes out even if the peer is gone. -/
def write (count : Nat) (c : Connection) : Option Connection :=
  match c.writer with
  | .writing batch =>
    match batch.chunks with
    | [] => none
    | chunk :: chunks =>
      match chunk.bytes.split? count with
      | none => none
      | some (bytes, rest) =>
        if c.outbox.isBroken ∧ 0 < count
            ∨ c.outbox.capacity < c.outbox.written.size + count then none
        else
          let batch := { batch with written := batch.written + count }
          if rest.isEmpty then
            let completions := chunk.completion.toList ++ batch.completions
            some { c with
              outbox := c.outbox.write bytes, writer := .writing { batch with chunks, completions } }
          else if count = 0 then none
          else
            let chunks := { chunk with bytes := rest } :: chunks
            some { c with
              outbox := c.outbox.write bytes, writer := .writing { batch with chunks } }
  | _ => none

/-- Once a batch is flushed its bytes count as written and its completions are resolved. -/
def flush (c : Connection) : Option Connection :=
  match c.writer with
  | .writing { chunks := [], written, completions } =>
    let queue := c.queue.complete completions.reverse
    some ({ c with writer := .idle }.setQueue { queue with counter := queue.counter.add written })
  | _ => none

/-- Gives up what the writer has taken and not flushed, and closes the queue. -/
def giveUp (writer : Writer) (c : Connection) : Connection :=
  { c with writer }.setQueue (c.queue.abandon c.writer.completions).close

def fail (c : Connection) : Option Connection :=
  match c.writer with
  | .writing _ => if c.outbox.isBroken then some (c.giveUp .failed).cancel else none
  | _ => none

/-- A write is not waited for. -/
def stopWriter (c : Connection) : Option Connection :=
  if c.isCancelled && !c.writer.hasStopped then some (c.giveUp .stopped) else none

def finish (c : Connection) : Option Connection :=
  if c.reader.hasStopped && c.outcome.isSome && c.writer.hasStopped && !c.isFinished then
    some ({ c with isFinished := true }.setSession c.session.shutdown)
  else none

/-- What becomes of the connection, if the event is possible. -/
def fire (c : Connection) : Event → Option Connection
  | .ask => c.ask
  | .read count => c.read count
  | .failRead => c.failRead
  | .handOver => c.handOver
  | .receive => c.receive
  | .gather count => c.gather count
  | .write count => c.write count
  | .flush => c.flush
  | .fail => c.fail
  | .stopReader => c.stopReader
  | .stopReceiver => c.stopReceiver
  | .stopWriter => c.stopWriter
  | .finish => c.finish

/-- How a connection ended. A failed read goes before an error of the receiver, and that before a
failed write. -/
def result? (c : Connection) : Option (Except ConnectionError Unit) :=
  if c.isFinished then
    match c.reader, c.outcome, c.writer with
    | .failed, _, _ => some (.error .peerGone)
    | _, some (.ok ()), .failed => some (.error .peerGone)
    | _, outcome, _ => outcome
  else none

end Connection

end RtmpEndpoint
