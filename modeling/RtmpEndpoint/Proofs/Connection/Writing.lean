import RtmpEndpoint.Connection.Work
import RtmpEndpoint.Proofs.Connection.Answering

/-!
# What the writer does

The writer takes what is queued in batches, puts the bytes of a batch on the socket as the socket
takes them, and counts and completes a batch once it is flushed. Any holder of the queue may send in
between, and the writer may be stopped at any point, also in the middle of a chunk. An account says
what was queued, what was flushed and what the peer has read, and the socket never has anything but
a front part of what was queued.
-/

namespace RtmpEndpoint.Connection

open RtmpEndpoint.Flow (QueuedChunk SendQueue)
open RtmpEndpoint.Flow.SendQueue (Grows Sent bytesOf completionsOf)

/-! ## Events and the way to the peer -/

/-- Whether it is the writer that does it. -/
def Event.isWriters : Event → Bool
  | gather _ | write _ | flush | fail | stopWriter => true
  | _ => false

/-- What an event does to the writer, to what is on its way to the peer and to the queue. -/
inductive Wrote (c d : Connection) : Event → Prop where
  | gather {count : Nat} (idle : c.writer = .idle) (outbox : d.outbox = c.outbox)
      (writer : d.writer = .writing { chunks := c.queue.chunks.take count })
      (queue : d.queue = { c.queue with chunks := c.queue.chunks.drop count }) :
      Wrote c d (.gather count)
  | write {count : Nat} {batch next : Batch} {bytes : Bytes} (before : c.writer = .writing batch)
      (writer : d.writer = .writing next) (queue : d.queue = c.queue)
      (outbox : d.outbox = c.outbox.write bytes)
      (written : next.written = batch.written + bytes.length)
      (left : bytesOf batch.chunks = bytes ++ bytesOf next.chunks)
      (completions : next.completions.reverse ++ completionsOf next.chunks
        = batch.completions.reverse ++ completionsOf batch.chunks) : Wrote c d (.write count)
  | flush {written : Nat} {completions : List Nat}
      (before : c.writer = .writing { chunks := [], written, completions })
      (writer : d.writer = .idle) (outbox : d.outbox = c.outbox)
      (queue : d.queue = { c.queue.complete completions.reverse with
        counter := c.queue.counter.add written }) : Wrote c d .flush
  | giveUp {event : Event} (ends : event = .fail ∨ event = .stopWriter)
      (writer : d.writer.hasStopped = true) (outbox : d.outbox = c.outbox)
      (queue : d.queue = (c.queue.abandon c.writer.completions).close) : Wrote c d event
  | beside {event : Event} (others : event.isWriters = false) (writer : d.writer = c.writer)
      (outbox : d.outbox = c.outbox) (queue : Grows c.queue d.queue) : Wrote c d event

variable {c d : Connection}

theorem grows_of_eq {q r : SendQueue} (h : r = q) : Grows q r := h ▸ .refl q

theorem wrote_read {count : Nat} (h : c.read count = some d) : Wrote c d (.read count) := by
  unfold read at h
  split at h
  · split at h
    · split at h
      · cases h
        exact .beside rfl rfl rfl (.refl _)
      · cases h
    · split at h
      · split at h
        · cases h
          exact .beside rfl rfl rfl (.refl _)
        · cases h
      · cases h
  · cases h

theorem wrote_failRead (h : c.failRead = some d) : Wrote c d .failRead := by
  unfold failRead at h
  split at h
  · cases h
    exact .beside rfl rfl rfl (.refl _)
  · cases h

theorem wrote_handOver (h : c.handOver = some d) : Wrote c d .handOver := by
  unfold handOver at h
  split at h
  · split at h
    · cases h
      exact .beside rfl rfl rfl (.refl _)
    · split at h
      · cases h
        exact .beside rfl rfl rfl (.refl _)
      · cases h
  · cases h

/-- The receiver answers on the queue and does nothing else to it. -/
theorem wrote_receive (h : c.receive = some d) : Wrote c d .receive := by
  unfold receive at h
  split at h
  · next bytes reads _ _ =>
    have hgrows : Grows c.queue (c.receiver.process bytes).2.queue :=
      Receiver.stable_process (SendQueue.stable_grows c.queue) bytes (.refl _)
    split at h
    · next error receiver hrun =>
      rw [hrun] at hgrows
      cases h
      exact .beside rfl rfl rfl hgrows
    · next receiver hrun =>
      rw [hrun] at hgrows
      cases h
      exact .beside rfl rfl rfl hgrows
  · cases h

theorem wrote_gather {count : Nat} (h : c.gather count = some d) : Wrote c d (.gather count) := by
  unfold gather at h
  split at h
  · next hidle =>
    split at h
    · cases h
      exact .gather hidle rfl rfl rfl
    · cases h
  · cases h

theorem wrote_write {count : Nat} (h : c.write count = some d) : Wrote c d (.write count) := by
  unfold write at h
  split at h
  · next batch hwriter =>
    split at h
    · cases h
    · next chunk chunks hchunks =>
      split at h
      · cases h
      · next bytes rest hsplit =>
        obtain ⟨hbytes, rfl⟩ := Bytes.split?_eq_some_iff.mp hsplit
        split at h
        · cases h
        · dsimp only at h
          split at h
          · next hrest =>
            obtain rfl := List.isEmpty_iff.mp hrest
            cases h
            refine .write hwriter rfl rfl rfl rfl ?_ ?_
            · rw [hchunks, SendQueue.bytesOf_cons, hbytes, List.append_nil]
            · rw [hchunks, SendQueue.completionsOf_cons, List.reverse_append, List.append_assoc]
              cases chunk.completion <;> rfl
          · split at h
            · cases h
            · cases h
              refine .write hwriter rfl rfl rfl rfl ?_ ?_
              · rw [hchunks, SendQueue.bytesOf_cons, SendQueue.bytesOf_cons, hbytes,
                  List.append_assoc]
              · rw [hchunks, SendQueue.completionsOf_cons, SendQueue.completionsOf_cons]
  · cases h

theorem wrote_flush (h : c.flush = some d) : Wrote c d .flush := by
  unfold flush at h
  split at h
  · next hwriter =>
    cases h
    exact .flush hwriter rfl rfl rfl
  · cases h

theorem wrote_fail (h : c.fail = some d) : Wrote c d .fail := by
  unfold fail at h
  split at h
  · split at h
    · cases h
      exact .giveUp (.inl rfl) rfl rfl rfl
    · cases h
  · cases h

theorem wrote_stopWriter (h : c.stopWriter = some d) : Wrote c d .stopWriter := by
  unfold stopWriter at h
  split at h
  · cases h
    exact .giveUp (.inr rfl) rfl rfl rfl
  · cases h

theorem wrote_fire {event : Event} (h : c.fire event = some d) : Wrote c d event := by
  cases event with
  | ask =>
    simp only [fire, ask] at h
    split at h
    · cases h
      exact .beside rfl rfl rfl (.refl _)
    · cases h
  | read count => exact wrote_read h
  | failRead => exact wrote_failRead h
  | handOver => exact wrote_handOver h
  | receive => exact wrote_receive h
  | gather count => exact wrote_gather h
  | write count => exact wrote_write h
  | flush => exact wrote_flush h
  | fail => exact wrote_fail h
  | stopReader =>
    simp only [fire, stopReader] at h
    split at h
    · cases h
      exact .beside rfl rfl rfl (.refl _)
    · cases h
  | stopReceiver =>
    simp only [fire, stopReceiver] at h
    split at h
    · cases h
      exact .beside rfl rfl rfl (.refl _)
    · cases h
  | stopWriter => exact wrote_stopWriter h
  | finish =>
    simp only [fire, finish] at h
    split at h
    · cases h
      exact .beside rfl rfl rfl (grows_of_eq (queue_shutdown _))
    · cases h

/-! ## Moves -/

/-- What can happen to a connection. -/
inductive Move where
  | fire (event : Event)
  /-- Others that hold the queue send on it. -/
  | sendRaw (bytes : Bytes)
  | send (csid : UInt32) (payload : Payload)
  | setChunkSize (size : UInt32) (announcement : Payload)
  | arrive (bytes : Bytes)
  | endInput
  | leave
  | takeWritten
  | cancel

/-- Others use the queue. -/
def use (x : SendQueue → SendQueue) (c : Connection) : Connection := c.setQueue (x c.queue)

/-- What becomes of the connection, if the move can be made. -/
def move (c : Connection) : Move → Option Connection
  | .fire event => c.fire event
  | .sendRaw bytes => some (c.use fun q => (SendQueue.sendRaw bytes q).2)
  | .send csid payload => some (c.use fun q => (SendQueue.send csid payload q).2)
  | .setChunkSize size announcement =>
    some (c.use fun q => (SendQueue.setChunkSize size announcement q).2)
  | .arrive bytes => some (c.arrive bytes)
  | .endInput => some c.endInput
  | .leave => some c.leave
  | .takeWritten => some c.takeWritten.2
  | .cancel => some c.cancel

/-- What each move preserves is preserved by a run. -/
theorem preserved_of_moves {α : Type} {step : α → Move → Option α} {p : α → Prop}
    (hstep : ∀ a move b, p a → step a move = some b → p b) {moves : List Move} {a b : α}
    (ha : p a) (hrun : moves.foldlM step a = some b) : p b := by
  induction moves generalizing a with
  | nil =>
    cases hrun
    exact ha
  | cons move moves ih =>
    obtain ⟨next, hmove, hrest⟩ := Option.bind_eq_some_iff.mp hrun
    exact ih (hstep a move next ha hmove) hrest

/-! ## Accounts -/

/-- A connection and what has come of its queue. -/
structure Account where
  connection : Connection
  /-- All chunks that were ever queued, in order. -/
  queued : List QueuedChunk := []
  /-- What the writer has taken and not flushed, as it took it. -/
  batch : List QueuedChunk := []
  /-- The batches that were flushed, in order. -/
  flushed : List (List QueuedChunk) := []
  /-- What the writer has added to the count of written bytes. -/
  added : Nat := 0
  /-- What the peer has read. -/
  read : Bytes := []

namespace Account

/-- All bytes that were put on the socket. -/
def socket (a : Account) : Bytes := a.read ++ a.connection.outbox.written.bytes

def queue (a : Account) : SendQueue := a.connection.queue

/-- The connection has become this one. What its queue holds beyond what it held was queued. -/
def become (d : Connection) (a : Account) : Account :=
  { a with connection := d, queued := a.queued ++ d.queue.chunks.drop a.queue.chunks.length }

/-- The bytes that are added when the batch is flushed. -/
def adding (a : Account) : Nat :=
  match a.connection.writer with
  | .writing batch => batch.written
  | _ => 0

/-- The account of what has become of the connection. -/
def after (a : Account) (d : Connection) : Move → Account
  | .fire (.gather count) => { a.become d with batch := a.queue.chunks.take count }
  | .fire .flush =>
    { a.become d with
      batch := [], flushed := a.flushed ++ [a.batch], added := a.added + a.adding }
  | .takeWritten => { a.become d with read := a.read ++ a.connection.takeWritten.1 }
  | _ => a.become d

def move (a : Account) (move : Move) : Option Account :=
  (a.connection.move move).map fun d => a.after d move

/-- A connection that has just been accepted, with nothing sent on it. -/
def start (session : Session) (nonce : Nonce) (capacity : Nat) : Account where
  connection := .accept { session with queue := {} } nonce capacity

/-- The moves one after the other, if each of them can be made. -/
def run (moves : List Move) (a : Account) : Option Account := moves.foldlM move a

/-- How the writer stands. -/
inductive Stands (a : Account) : Prop where
  | idle (writer : a.connection.writer = .idle) (isOpen : a.queue.isOpen = true)
      (queued : a.queued = a.flushed.flatten ++ a.queue.chunks)
      (socket : a.socket = bytesOf a.flushed.flatten)
  | writing {batch : Batch} (part : Bytes) (writer : a.connection.writer = .writing batch)
      (isOpen : a.queue.isOpen = true)
      (queued : a.queued = a.flushed.flatten ++ a.batch ++ a.queue.chunks)
      (socket : a.socket = bytesOf a.flushed.flatten ++ part)
      (written : batch.written = part.length)
      (left : bytesOf a.batch = part ++ bytesOf batch.chunks)
      (completions : batch.completions.reverse ++ completionsOf batch.chunks
        = completionsOf a.batch)
  | gone (writer : a.connection.writer.hasStopped = true) (isOpen : a.queue.isOpen = false)
      (chunks : a.queue.chunks = []) (flushed : a.flushed.flatten <+: a.queued)
      (socket : a.socket <+: bytesOf a.queued)
      (reached : bytesOf a.flushed.flatten <+: a.socket)

/-- What the account says is so. -/
structure Kept (a : Account) : Prop where
  sent : Sent 0 a.queued a.queue.messages
  done : a.queue.done = (completionsOf a.flushed.flatten).reverse
  added : a.added = (bytesOf a.flushed.flatten).length
  counter : a.queue.counter.bytes.toNat ≤ a.added
  stands : a.Stands

variable {a b : Account}

theorem kept_start (session : Session) (nonce : Nonce) (capacity : Nat) :
    (start session nonce capacity).Kept :=
  ⟨.nil, rfl, rfl, Nat.le_refl 0, .idle rfl rfl rfl rfl⟩

/-! ## What follows from an account -/

theorem Kept.flushed_prefix (h : a.Kept) : a.flushed.flatten <+: a.queued := by
  cases h.stands with
  | idle _ _ hall => exact ⟨_, hall.symm⟩
  | writing _ _ _ hall => exact ⟨_, by rw [hall, List.append_assoc]⟩
  | gone _ _ _ hflushed => exact hflushed

theorem Kept.socket_prefix (h : a.Kept) : a.socket <+: bytesOf a.queued := by
  cases h.stands with
  | idle _ _ hall hput => exact ⟨_, by rw [hall, hput, SendQueue.bytesOf_append]⟩
  | @writing batch part _ _ hall hput _ hleft =>
    refine ⟨bytesOf batch.chunks ++ bytesOf a.queue.chunks, ?_⟩
    rw [hall, hput, SendQueue.bytesOf_append, SendQueue.bytesOf_append, hleft]
    simp only [List.append_assoc]
  | gone _ _ _ _ hput => exact hput

theorem Kept.reached (h : a.Kept) : bytesOf a.flushed.flatten <+: a.socket := by
  cases h.stands with
  | idle _ _ _ hput => exact hput ▸ List.prefix_refl _
  | writing _ _ _ _ hput => exact ⟨_, hput.symm⟩
  | gone _ _ _ _ _ hreached => exact hreached

/-! ## One move -/

/-- Taking chunks off a queue adds nothing to what was queued. -/
theorem queued_become_of_le {d : Connection}
    (h : d.queue.chunks.length ≤ a.queue.chunks.length) : (a.become d).queued = a.queued := by
  rw [become, List.drop_eq_nil_of_le h, List.append_nil]

theorem socket_become {d : Connection} (h : d.outbox.written = a.connection.outbox.written) :
    (a.become d).socket = a.socket := congrArg (a.read ++ ·.bytes) h

/-- Others send, and the writer has no part in it. -/
theorem Kept.beside (h : a.Kept) (writer : b.connection.writer = a.connection.writer)
    (socket : b.socket = a.socket) (queue : Grows a.queue b.queue)
    (queued : b.queued = a.queued ++ b.queue.chunks.drop a.queue.chunks.length)
    (batch : b.batch = a.batch) (flushed : b.flushed = a.flushed) (added : b.added = a.added) :
    b.Kept := by
  obtain ⟨more, hchunks, hsent, hnone⟩ := queue.sent
  rw [hchunks, List.drop_left] at queued
  refine ⟨queued ▸ h.sent.append hsent, ?_, ?_, ?_, ?_⟩
  · rw [queue.done, flushed]
    exact h.done
  · rw [added, flushed]
    exact h.added
  · rw [added]
    exact Nat.le_trans queue.counter h.counter
  cases h.stands with
  | idle hidle hopen hall hput =>
    refine .idle (writer.trans hidle) (queue.isOpen.trans hopen) ?_ ?_
    · rw [queued, hall, hchunks, flushed, List.append_assoc]
    · rw [socket, hput, flushed]
  | writing part hwriting hopen hall hput hwritten hleft hcompletions =>
    refine .writing part (writer.trans hwriting) (queue.isOpen.trans hopen) ?_ ?_ hwritten
      (batch ▸ hleft) (batch ▸ hcompletions)
    · rw [queued, hall, hchunks, flushed, batch, List.append_assoc _ a.queue.chunks]
    · rw [socket, hput, flushed]
  | gone hstopped hclosed hempty hflushed hput hreached =>
    obtain rfl := hnone hclosed
    rw [List.append_nil] at queued hchunks
    refine .gone (writer ▸ hstopped) (queue.isOpen.trans hclosed) (hchunks.trans hempty) ?_ ?_ ?_
    · rw [queued, flushed]
      exact hflushed
    · rw [socket, queued]
      exact hput
    · rw [socket, flushed]
      exact hreached

theorem Kept.become (h : a.Kept) {d : Connection} (writer : d.writer = a.connection.writer)
    (outbox : d.outbox.written = a.connection.outbox.written) (queue : Grows a.queue d.queue) :
    (a.become d).Kept :=
  h.beside writer (socket_become outbox) queue rfl rfl rfl rfl

/-- What the peer reads was on the socket before. -/
theorem Kept.takeWritten (h : a.Kept) :
    { a.become a.connection.takeWritten.2 with
      read := a.read ++ a.connection.takeWritten.1 }.Kept :=
  h.beside rfl (List.append_nil _) (.refl _) rfl rfl rfl rfl

theorem Kept.gather (h : a.Kept) {d : Connection} {count : Nat}
    (idle : a.connection.writer = .idle) (outbox : d.outbox = a.connection.outbox)
    (writer : d.writer = .writing { chunks := a.queue.chunks.take count })
    (queue : d.queue = { a.queue with chunks := a.queue.chunks.drop count }) :
    { a.become d with batch := a.queue.chunks.take count }.Kept := by
  have hqueued : (a.become d).queued = a.queued := queued_become_of_le (by simp [queue])
  have hsocket := socket_become (congrArg Outbox.written outbox)
  cases h.stands with
  | idle hidle hopen hall hput =>
    refine ⟨?_, (congrArg SendQueue.done queue).trans h.done, h.added,
      (congrArg (·.counter.bytes.toNat) queue).trans_le h.counter,
      .writing [] writer ((congrArg SendQueue.isOpen queue).trans hopen) ?_
        ((hsocket.trans hput).trans (List.append_nil _).symm) rfl rfl rfl⟩
    · change Sent 0 (a.become d).queued d.queue.messages
      rw [hqueued, queue]
      exact h.sent
    · change (a.become d).queued = a.flushed.flatten ++ _ ++ d.queue.chunks
      rw [hqueued, hall, queue, List.append_assoc, List.take_append_drop]
  | writing _ hwriting => cases idle.symm.trans hwriting
  | gone hstopped =>
    rw [idle] at hstopped
    cases hstopped

theorem Kept.write (h : a.Kept) {d : Connection} {batch next : Batch} {bytes : Bytes}
    (before : a.connection.writer = .writing batch) (writer : d.writer = .writing next)
    (queue : d.queue = a.queue) (outbox : d.outbox = a.connection.outbox.write bytes)
    (written : next.written = batch.written + bytes.length)
    (left : bytesOf batch.chunks = bytes ++ bytesOf next.chunks)
    (completions : next.completions.reverse ++ completionsOf next.chunks
      = batch.completions.reverse ++ completionsOf batch.chunks) : (a.become d).Kept := by
  have hqueued : (a.become d).queued = a.queued := queued_become_of_le (by rw [queue])
  have hsocket : (a.become d).socket = a.socket ++ bytes := by
    rw [socket, socket, List.append_assoc, ← Buffer.bytes_push]
    exact congrArg (a.read ++ ·.written.bytes) outbox
  cases h.stands with
  | writing part hwriting hopen hall hput hwritten hleft hcompletions =>
    cases before.symm.trans hwriting
    refine ⟨?_, (congrArg SendQueue.done queue).trans h.done, h.added,
      (congrArg (·.counter.bytes.toNat) queue).trans_le h.counter,
      .writing (part ++ bytes) writer ((congrArg SendQueue.isOpen queue).trans hopen) ?_ ?_ ?_ ?_
        (completions.trans hcompletions)⟩
    · change Sent 0 (a.become d).queued d.queue.messages
      rw [hqueued, queue]
      exact h.sent
    · change (a.become d).queued = a.flushed.flatten ++ a.batch ++ d.queue.chunks
      rw [hqueued, hall, queue]
    · rw [hsocket, hput, List.append_assoc]
      rfl
    · rw [written, hwritten, List.length_append]
    · rw [List.append_assoc, ← left]
      exact hleft
  | idle hidle => cases before.symm.trans hidle
  | gone hstopped =>
    rw [before] at hstopped
    cases hstopped

theorem Kept.flush (h : a.Kept) {d : Connection} {written : Nat} {completions : List Nat}
    (before : a.connection.writer = .writing { chunks := [], written, completions })
    (writer : d.writer = .idle) (outbox : d.outbox = a.connection.outbox)
    (queue : d.queue = { a.queue.complete completions.reverse with
      counter := a.queue.counter.add written }) :
    { a.become d with
      batch := [], flushed := a.flushed ++ [a.batch], added := a.added + a.adding }.Kept := by
  have hqueued : (a.become d).queued = a.queued :=
    queued_become_of_le (by rw [queue]; exact Nat.le_refl _)
  have hsocket := socket_become (congrArg Outbox.written outbox)
  have hflat : (a.flushed ++ [a.batch]).flatten = a.flushed.flatten ++ a.batch := by simp
  cases h.stands with
  | writing part hwriting hopen hall hput hwritten hleft hcompletions =>
    cases before.symm.trans hwriting
    have hbatch : bytesOf a.batch = part := hleft.trans (List.append_nil _)
    have hcompleted : completions.reverse = completionsOf a.batch :=
      (List.append_nil _).symm.trans hcompletions
    refine ⟨?_, ?_, ?_, ?_, .idle writer ((congrArg SendQueue.isOpen queue).trans hopen) ?_ ?_⟩
    · change Sent 0 (a.become d).queued d.queue.messages
      rw [hqueued, queue]
      exact h.sent
    · change d.queue.done = (completionsOf (a.flushed ++ [a.batch]).flatten).reverse
      rw [queue, hflat, SendQueue.completionsOf_append, List.reverse_append, ← hcompleted, ← h.done]
      rfl
    · change a.added + a.adding = (bytesOf (a.flushed ++ [a.batch]).flatten).length
      rw [hflat, SendQueue.bytesOf_append, List.length_append, ← h.added, hbatch, adding, before,
        ← hwritten]
    · have hcount : d.queue.counter = a.queue.counter.add written :=
        congrArg SendQueue.counter queue
      change d.queue.counter.bytes.toNat ≤ a.added + a.adding
      rw [hcount, adding, before]
      exact Nat.le_trans (a.queue.counter.toNat_add_le written) (Nat.add_le_add_right h.counter _)
    · change (a.become d).queued = (a.flushed ++ [a.batch]).flatten ++ d.queue.chunks
      rw [hqueued, hall, hflat, queue]
      rfl
    · change (a.become d).socket = bytesOf (a.flushed ++ [a.batch]).flatten
      rw [hsocket, hput, hflat, SendQueue.bytesOf_append, hbatch]
  | idle hidle => cases before.symm.trans hidle
  | gone hstopped =>
    rw [before] at hstopped
    cases hstopped

/-- What was written of a batch that is given up is a front part of it. -/
theorem Kept.giveUp (h : a.Kept) {d : Connection}
    (writer : d.writer.hasStopped = true) (outbox : d.outbox = a.connection.outbox)
    (queue : d.queue = (a.queue.abandon a.connection.writer.completions).close) :
    (a.become d).Kept := by
  have hqueued : (a.become d).queued = a.queued :=
    queued_become_of_le (by rw [queue]; exact Nat.zero_le _)
  have hsocket := socket_become (congrArg Outbox.written outbox)
  have hsent : Sent 0 (a.become d).queued d.queue.messages := by
    rw [hqueued, queue]
    exact h.sent
  refine ⟨hsent, (congrArg SendQueue.done queue).trans h.done, h.added,
    (congrArg (·.counter.bytes.toNat) queue).trans_le h.counter,
    .gone writer (congrArg SendQueue.isOpen queue) (congrArg SendQueue.chunks queue) ?_ ?_ ?_⟩
  · change a.flushed.flatten <+: (a.become d).queued
    rw [hqueued]
    exact h.flushed_prefix
  · rw [hqueued, hsocket]
    exact h.socket_prefix
  · change bytesOf a.flushed.flatten <+: (a.become d).socket
    rw [hsocket]
    exact h.reached

/-! ## Runs -/

theorem Kept.fire (h : a.Kept) {d : Connection} {event : Event}
    (hfire : a.connection.fire event = some d) : (a.after d (.fire event)).Kept := by
  have hwrote := wrote_fire hfire
  cases hwrote with
  | gather idle outbox writer queue => exact h.gather idle outbox writer queue
  | write before writer queue outbox written left completions =>
    exact h.write before writer queue outbox written left completions
  | flush before writer outbox queue => exact h.flush before writer outbox queue
  | giveUp ends writer outbox queue =>
    rcases ends with rfl | rfl <;> exact h.giveUp writer outbox queue
  | beside others writer outbox queue =>
    have hbecome := h.become writer (congrArg Outbox.written outbox) queue
    cases event with
    | ask | read | failRead | handOver | receive | stopReader | stopReceiver | finish =>
      exact hbecome
    | gather | write | flush | fail | stopWriter => cases others

theorem Kept.move (h : a.Kept) {move : Move} (hmove : a.move move = some b) : b.Kept := by
  obtain ⟨d, hd, rfl⟩ := Option.map_eq_some_iff.mp hmove
  cases move with
  | fire event => exact h.fire hd
  | sendRaw bytes =>
    cases hd
    exact h.become rfl rfl (SendQueue.grows_sendRaw bytes _)
  | send csid payload =>
    cases hd
    exact h.become rfl rfl (SendQueue.grows_send csid payload _)
  | setChunkSize size announcement =>
    cases hd
    exact h.become rfl rfl (SendQueue.grows_setChunkSize size announcement _)
  | takeWritten =>
    cases hd
    exact h.takeWritten
  | arrive | endInput | leave | cancel =>
    cases hd
    exact h.become rfl rfl (.refl _)

theorem Kept.run (h : a.Kept) {moves : List Move} (hrun : a.run moves = some b) : b.Kept :=
  preserved_of_moves (fun _ _ _ hkept hmove => hkept.move hmove) h hrun

/-! ## What can be said at any time -/

theorem completion_eq_done_iff {q : SendQueue} {n : Nat} : q.completion n = .done ↔ n ∈ q.done := by
  rw [SendQueue.completion]
  split
  · next h => simpa using h
  · next h =>
    split <;> simpa using h

/-- A completion is resolved once its chunk is flushed, and then so is everything before it. -/
theorem Kept.done_iff (h : a.Kept) {before after : List QueuedChunk} {chunk : QueuedChunk} {n : Nat}
    (queued : a.queued = before ++ chunk :: after) (completion : chunk.completion = some n) :
    a.queue.completion n = .done ↔ before ++ [chunk] <+: a.flushed.flatten := by
  have hchunk : completionsOf (chunk :: after) = n :: completionsOf after := by
    rw [SendQueue.completionsOf_cons, completion]
    rfl
  rw [completion_eq_done_iff, h.done, List.mem_reverse]
  constructor
  · intro hmem
    have hprefix : before ++ [chunk] <+: a.queued := ⟨after, by rw [queued, List.append_assoc]; rfl⟩
    rcases List.prefix_or_prefix_of_prefix hprefix h.flushed_prefix with hflushed | hshort
    · exact hflushed
    rcases List.prefix_concat_iff.mp hshort with heq | hshorter
    · exact heq ▸ List.prefix_refl _
    -- Its number would stand before it, and no number stands twice.
    · obtain ⟨more, rfl⟩ := hshorter
      have hnodup : (completionsOf a.queued).Nodup := by
        rw [h.sent.completionsOf_eq.2]
        exact List.nodup_range'
      rw [queued, SendQueue.completionsOf_append, hchunk, SendQueue.completionsOf_append] at hnodup
      have hdisjoint := (List.nodup_append.mp hnodup).2.2
      exact absurd rfl (hdisjoint n (List.mem_append_left _ hmem) n List.mem_cons_self)
  · rintro ⟨more, hmore⟩
    rw [← hmore, SendQueue.completionsOf_append, SendQueue.completionsOf_append]
    exact List.mem_append_left _ (List.mem_append_right _
      (List.mem_filterMap.mpr ⟨chunk, List.mem_singleton_self chunk, completion⟩))

/-- A message was queued behind everything else, its last piece with a completion that nothing
before it has. -/
def Appends (a : Account) (pieces : List Bytes) (n : Nat) (q : SendQueue) : Prop :=
  n ∉ completionsOf a.queued ∧ ∃ (front : List Bytes) (last : Bytes), pieces = front ++ [last] ∧
    q.chunks = a.queue.chunks ++ (front.map (⟨·, none⟩) ++ [⟨last, some n⟩])

theorem Kept.appends (h : a.Kept) {pieces : List Bytes} (hne : pieces ≠ []) {n : Nat}
    {q : SendQueue} (hnumber : n = a.queue.messages)
    (hchunks : q.chunks = a.queue.chunks ++ SendQueue.withCompletion n pieces) :
    a.Appends pieces n q := by
  constructor
  · rw [h.sent.completionsOf_eq.2, List.mem_range'_1]
    omega
  · obtain ⟨front, last, hpieces, hcompletion⟩ := SendQueue.exists_withCompletion n hne
    exact ⟨front, last, hpieces, hcompletion ▸ hchunks⟩

/-- A flush counts the bytes of its batch. -/
theorem Kept.flush_counts (h : a.Kept) (hfire : a.move (.fire .flush) = some b) :
    b.flushed = a.flushed ++ [a.batch] ∧ b.added = a.added + (bytesOf a.batch).length ∧
      b.queue.counter.bytes
        = a.queue.counter.bytes + UInt64.ofNat (bytesOf a.batch).length := by
  obtain ⟨d, hd, rfl⟩ := Option.map_eq_some_iff.mp hfire
  have hwrote : Wrote a.connection d .flush := wrote_fire hd
  cases hwrote with
  | @flush written completions before writer outbox queue =>
    have hbatch : (bytesOf a.batch).length = written := by
      cases h.stands with
      | writing part hwriting _ _ _ hwritten hleft =>
        cases before.symm.trans hwriting
        rw [hleft]
        exact (congrArg List.length (List.append_nil part)).trans hwritten.symm
      | idle hidle => cases before.symm.trans hidle
      | gone hstopped =>
        rw [before] at hstopped
        cases hstopped
    refine ⟨rfl, ?_, ?_⟩
    · change a.added + a.adding = _
      rw [hbatch, adding, before]
    · rw [hbatch]
      exact congrArg (·.counter.bytes) queue
  | giveUp ends => rcases ends with ends | ends <;> cases ends
  | beside others => cases others

/-- Nothing else that the writer does counts anything. -/
theorem fire_uncounted {event : Event} (hwriters : event.isWriters = true) (hflush : event ≠ .flush)
    (hfire : a.move (.fire event) = some b) :
    b.flushed = a.flushed ∧ b.added = a.added ∧ b.queue.counter = a.queue.counter := by
  obtain ⟨d, hd, rfl⟩ := Option.map_eq_some_iff.mp hfire
  have hwrote : Wrote a.connection d event := wrote_fire hd
  cases hwrote with
  | gather idle outbox writer queue =>
    exact ⟨rfl, rfl, (congrArg SendQueue.counter queue).trans rfl⟩
  | write before writer queue => exact ⟨rfl, rfl, congrArg SendQueue.counter queue⟩
  | flush => exact absurd rfl hflush
  | giveUp ends writer outbox queue =>
    rcases ends with rfl | rfl <;>
      exact ⟨rfl, rfl, (congrArg SendQueue.counter queue).trans rfl⟩
  | beside others => cases hwriters.symm.trans others

/-- What can be said of an account at any time. -/
structure InOrder (a : Account) : Prop where
  /-- The socket has a front part of what was queued, in the order of the queue. -/
  socket : a.socket <+: bytesOf a.queued
  flushed : a.flushed.flatten <+: a.queued
  /-- All that was ever counted is what was flushed, and the socket has at least that. -/
  added : a.added = (bytesOf a.flushed.flatten).length
  reached : bytesOf a.flushed.flatten <+: a.socket
  added_le : a.added ≤ a.socket.length
  /-- The queue never counts more than was added. -/
  counter_le : a.queue.counter.bytes.toNat ≤ a.added
  /-- A flush adds the bytes of its batch to the count of the queue, which has 64 bits. -/
  flush : ∀ b, a.move (.fire .flush) = some b → b.flushed = a.flushed ++ [a.batch] ∧
    b.added = a.added + (bytesOf a.batch).length ∧
    b.queue.counter.bytes = a.queue.counter.bytes + UInt64.ofNat (bytesOf a.batch).length
  uncounted : ∀ event b, event.isWriters = true → event ≠ .flush → a.move (.fire event) = some b →
    b.flushed = a.flushed ∧ b.added = a.added ∧ b.queue.counter = a.queue.counter
  /-- Raw bytes and messages were queued, each message with one completion, on its last chunk. -/
  sent : Sent 0 a.queued a.queue.messages
  /-- A message that is sent now gets a completion of its own, and so does an announcement. -/
  send : ∀ csid payload n q, SendQueue.send csid payload a.queue = (.ok n, q) →
    a.Appends (a.queue.splitter.chunksFor csid payload) n q
  announce : ∀ size announcement n q,
    SendQueue.setChunkSize size announcement a.queue = (.ok n, q) →
      a.Appends (a.queue.splitter.chunksFor Chunk.controlStreamId announcement) n q
  /-- A completion is resolved exactly if its chunk is flushed, and all chunks before it. -/
  done_iff : ∀ before chunk after n, a.queued = before ++ chunk :: after →
    chunk.completion = some n →
    (a.queue.completion n = .done ↔ before ++ [chunk] <+: a.flushed.flatten)

/-- However chunks come to the queue, however the writer takes them and wherever it is stopped, what
is queued goes out in order, is counted when it is flushed and is only then completed. -/
theorem written_in_order {session : Session} {nonce : Nonce} {capacity : Nat} {moves : List Move}
    (hrun : (start session nonce capacity).run moves = some a) : a.InOrder := by
  have h : a.Kept := (kept_start session nonce capacity).run hrun
  exact {
    socket := h.socket_prefix
    flushed := h.flushed_prefix
    added := h.added
    reached := h.reached
    added_le := h.added ▸ h.reached.length_le
    counter_le := h.counter
    flush := fun _ => h.flush_counts
    uncounted := fun _ _ => fire_uncounted
    sent := h.sent
    send := fun csid payload _ _ hsend =>
      have ⟨hnumber, hchunks⟩ := SendQueue.send_number hsend
      h.appends (Chunk.Splitter.chunksFor_ne_nil _ csid payload) hnumber hchunks
    announce := fun _ announcement _ _ hset =>
      have ⟨hnumber, hchunks⟩ := SendQueue.setChunkSize_number hset
      h.appends (Chunk.Splitter.chunksFor_ne_nil _ _ announcement) hnumber hchunks
    done_iff := fun _ _ _ _ => h.done_iff }

/-- An empty message is queued and then a longer one. The empty one is written. -/
def emptyWritten : List Move :=
  [.send 3 ⟨⟨0⟩, .audio, 1, []⟩, .send 4 ⟨⟨0⟩, .video, 1, List.replicate 130 0⟩,
    .fire (.gather 1), .fire (.write 12)]

/-- The writer is stopped in the second chunk of the longer one. -/
def stoppedInMessage : List Move :=
  [.takeWritten, .fire (.gather 2), .fire (.write 140), .fire (.write 1), .cancel,
    .fire .stopWriter]

theorem written_in_order_stoppedInMessage :
    ∃ a b c, (start {} ⟨List.replicate 1528 7, List.length_replicate⟩ 200).run emptyWritten
        = some a ∧ a.move (.fire .flush) = some b ∧ b.run stoppedInMessage = some c ∧
      a.queue.counter.bytes = 0 ∧ (bytesOf a.batch).length = 12 ∧ b.queue.counter.bytes = 12 ∧
      c.socket.length = 153 ∧ (bytesOf c.queued).length = 155 ∧ c.added = 12 ∧
      c.queue.completion 0 = .done ∧ c.queue.completion 1 = .abandoned ∧ c.InOrder := by
  have hbegins : ((start {} ⟨List.replicate 1528 7, List.length_replicate⟩ 200).run
      emptyWritten).map (fun a => (a.queue.counter.bytes, (bytesOf a.batch).length))
      = some (0, 12) := by
    decide +kernel
  have hends : ((start {} ⟨List.replicate 1528 7, List.length_replicate⟩ 200).run
      (emptyWritten ++ .fire .flush :: stoppedInMessage)).map (fun c => (c.socket.length,
        (bytesOf c.queued).length, c.added, c.queue.completion 0, c.queue.completion 1))
      = some (153, 155, 12, .done, .abandoned) := by
    decide +kernel
  obtain ⟨a, hwritten, hbegin⟩ := Option.map_eq_some_iff.mp hbegins
  obtain ⟨hbefore, hbatch⟩ := Prod.mk.inj hbegin
  obtain ⟨c, hrun, hend⟩ := Option.map_eq_some_iff.mp hends
  obtain ⟨hsocket, hqueued, hadded, hdone, habandoned⟩ := by simpa only [Prod.mk.injEq] using hend
  have hinOrder := written_in_order hrun
  rw [run, List.foldlM_append] at hrun
  obtain ⟨_, hsame, hrest⟩ := Option.bind_eq_some_iff.mp hrun
  cases hwritten.symm.trans hsame
  obtain ⟨b, hflush, hstopped⟩ := Option.bind_eq_some_iff.mp hrest
  have hafter : b.queue.counter.bytes = 12 := by
    rw [((written_in_order hwritten).flush b hflush).2.2, hbefore, hbatch]
    rfl
  exact ⟨a, b, c, hwritten, hflush, hstopped, hbefore, hbatch, hafter, hsocket, hqueued, hadded,
    hdone, habandoned, hinOrder⟩

end Account

end RtmpEndpoint.Connection
