import RtmpEndpoint.Proofs.Connection.Following
import RtmpEndpoint.Proofs.Connection.Writing

/-!
# What moves do to the input

Input comes, is read, is handed over and is taken, in order. A loop stops because of the end of the
input, an error or a closed session, and then the session is closed, which stops the other two.
-/

namespace RtmpEndpoint

/-! ## What a move does to the input -/

/-- What the reader has read and not handed over. -/
def Reader.held : Reader → Bytes
  | holding bytes => bytes
  | _ => []

namespace Connection

open RtmpEndpoint.Flow (SendQueue)

/-- What has come and the receiver has not taken. -/
def waiting (c : Connection) : Bytes := c.reads.flatten ++ c.reader.held ++ c.inbox

/-- Whether input comes or is taken. -/
def Move.isInput : Move → Bool
  | .arrive _ | .fire .receive => true
  | _ => false

/-- No loop stops, and of the receiver nothing changes but its session. -/
structure Quiet (c d : Connection) : Prop where
  reader : d.reader.hasStopped = c.reader.hasStopped
  outcome : d.outcome = c.outcome
  writer : d.writer.hasStopped = c.writer.hasStopped
  receiver : d.receiver = c.receiver.withSession d.session
  isCancelled : d.isCancelled = c.isCancelled
  isOpen : d.queue.isOpen = c.queue.isOpen

/-- The session is closed, and a loop may have stopped. -/
structure Halts (c d : Connection) : Prop where
  isCancelled : d.isCancelled = true
  reads : d.reads = c.reads
  waiting : d.reader.hasStopped = false → c.reader.hasStopped = false ∧ d.waiting = c.waiting
  outcome : d.outcome = c.outcome ∨ d.outcome.isSome = true
  receiver : d.receiver = c.receiver.withSession d.session
  isOpen : d.queue.isOpen = true → c.queue.isOpen = true

/-- Something has stopped. -/
def Stopped (c : Connection) : Prop :=
  c.isCancelled = true ∨ c.reader.hasStopped = true ∨ c.outcome.isSome = true ∨
    c.writer.hasStopped = true

/-- What a move does to the input and to the loops. -/
inductive Took (c d : Connection) : Move → Prop where
  | passes {move : Move} (beside : move.isInput = false) (quiet : Quiet c d)
      (waiting : d.waiting = c.waiting) (reads : d.reads = c.reads) : Took c d move
  | handOver {bytes : Bytes} (quiet : Quiet c d) (reader : c.reader.hasStopped = false)
      (waiting : d.waiting = c.waiting) (reads : d.reads = c.reads ++ [bytes]) :
      Took c d (.fire .handOver)
  | arrive {bytes : Bytes} (quiet : Quiet c d) (waiting : d.waiting = c.waiting ++ bytes)
      (reads : d.reads = c.reads) : Took c d (.arrive bytes)
  | receive {bytes : Bytes} (running : c.outcome = none) (reads : c.reads = bytes :: d.reads)
      (reader : d.reader = c.reader) (inbox : d.inbox = c.inbox) (writer : d.writer = c.writer)
      (receiver : Receiver.process bytes c.receiver = (.ok (), d.receiver))
      (outcome : d.outcome = if d.isCancelled then some (.ok ()) else none) :
      Took c d (.fire .receive)
  | fails {bytes : Bytes} {error : ConnectionError} {r : Receiver} (running : c.outcome = none)
      (reads : c.reads = bytes :: d.reads) (reader : d.reader = c.reader)
      (inbox : d.inbox = c.inbox) (receiver : Receiver.process bytes c.receiver = (.error error, r))
      (queue : d.queue = r.queue) (outcome : d.outcome = some (.error error))
      (isCancelled : d.isCancelled = true) : Took c d (.fire .receive)
  | ends (asked : c.reader = .asking 0 ∨ c.waiting = c.reads.flatten ∧ c.isEnded = true)
      (reader : d.reader.hasStopped = true) (halts : Halts c d) : Took c d (.fire (.read 0))
  | readFails {size : Nat} (asking : c.reader = .asking size) (halts : Halts c d) :
      Took c d (.fire .failRead)
  | gone (isBroken : c.outbox.isBroken = true) (halts : Halts c d) : Took c d (.fire .fail)
  | cancel (halts : Halts c d) : Took c d .cancel
  | follows {move : Move} (beside : move.isInput = false) (stopped : Stopped c)
      (halts : Halts c d) : Took c d move

variable {c d : Connection}

theorem quiet_of_queue {queue : SendQueue}
    (receiver : d.receiver = c.receiver.withSession { c.session with queue })
    (isOpen : queue.isOpen = c.queue.isOpen) (reader : d.reader.hasStopped = c.reader.hasStopped)
    (outcome : d.outcome = c.outcome) (writer : d.writer.hasStopped = c.writer.hasStopped) :
    Quiet c d := by
  have hsession : d.session = { c.session with queue } := congrArg (·.link.session) receiver
  refine ⟨reader, outcome, writer, ?_, ?_, ?_⟩
  · rw [hsession]
    exact receiver
  · rw [isCancelled, hsession]
    rfl
  · rw [Connection.queue, hsession]
    exact isOpen

/-- What is no concern of the receiver. -/
theorem quiet_of_eq (receiver : d.receiver = c.receiver)
    (reader : d.reader.hasStopped = c.reader.hasStopped) (outcome : d.outcome = c.outcome)
    (writer : d.writer.hasStopped = c.writer.hasStopped) : Quiet c d :=
  have hreceiver : d.receiver = c.receiver.withSession { c.session with queue := c.queue } :=
    receiver
  quiet_of_queue hreceiver rfl reader outcome writer

/-- The reader stops and closes the session. -/
theorem halts_reader {reader : Reader} (hstopped : reader.hasStopped = true) (c : Connection) :
    Halts c { c.cancel with reader } where
  isCancelled := rfl
  reads := rfl
  waiting hgoes := by cases hstopped.symm.trans hgoes
  outcome := .inl rfl
  receiver := rfl
  isOpen := id

/-- The writer stops and the session is closed. -/
theorem halts_giveUp (writer : Writer) (c : Connection) : Halts c (c.giveUp writer).cancel where
  isCancelled := rfl
  reads := rfl
  waiting hgoes := ⟨hgoes, rfl⟩
  outcome := .inl rfl
  receiver := rfl
  isOpen hopen := by cases hopen

theorem took_use {move : Move} {x : SendQueue → SendQueue} (beside : move.isInput = false)
    (hx : SendQueue.Grows c.queue (x c.queue)) : Took c (c.use x) move :=
  .passes beside (quiet_of_queue rfl hx.isOpen rfl rfl rfl) rfl rfl

theorem took_ask (h : c.ask = some d) : Took c d (.fire .ask) := by
  unfold ask at h
  split at h
  · next hreader =>
    cases h
    refine .passes rfl (quiet_of_eq rfl ?_ rfl rfl) ?_ rfl
    · rw [hreader]
      rfl
    · rw [waiting, waiting, hreader]
      rfl
  · cases h

theorem took_read {count : Nat} (h : c.read count = some d) : Took c d (.fire (.read count)) := by
  unfold read at h
  split at h
  · next size hreader =>
    split at h
    · next hcount =>
      subst hcount
      split at h
      · next hend =>
        cases h
        refine .ends ?_ rfl (halts_reader rfl c)
        rcases hend with rfl | ⟨hempty, hended⟩
        · exact .inl hreader
        · refine .inr ⟨?_, hended⟩
          rw [waiting, hreader, List.isEmpty_iff.mp hempty, List.append_nil]
          exact List.append_nil _
      · cases h
    · split at h
      · split at h
        · next bytes inbox hsplit =>
          cases h
          refine .passes rfl (quiet_of_eq rfl ?_ rfl rfl) ?_ rfl
          · rw [hreader]
            rfl
          · rw [waiting, waiting, hreader, (Bytes.split?_eq_some_iff.mp hsplit).1]
            simp only [Reader.held, List.append_assoc, List.nil_append]
        · cases h
      · cases h
  · cases h

/-- A read of nothing stops the reader. -/
theorem read_zero (h : c.read 0 = some d) : d = { c.cancel with reader := .stopped } := by
  unfold read at h
  split at h
  · rw [if_pos rfl] at h
    split at h
    · cases h
      rfl
    · cases h
  · cases h

theorem took_failRead (h : c.failRead = some d) : Took c d (.fire .failRead) := by
  unfold failRead at h
  split at h
  · next size hreader =>
    cases h
    exact .readFails hreader (halts_reader rfl c)
  · cases h

theorem took_handOver (h : c.handOver = some d) : Took c d (.fire .handOver) := by
  unfold handOver at h
  split at h
  · next bytes hreader =>
    split at h
    · next hdone =>
      cases h
      exact .follows rfl (.inr (.inr (.inl hdone))) (halts_reader rfl c)
    · split at h
      · cases h
        refine .handOver (quiet_of_eq rfl ?_ rfl rfl) ?_ ?_ rfl
        · rw [hreader]
          rfl
        · rw [hreader]
          rfl
        · rw [waiting, waiting, hreader]
          simp only [Reader.held, List.flatten_append, List.flatten_singleton, List.append_nil]
      · cases h
  · cases h

theorem took_receive (h : c.receive = some d) : Took c d (.fire .receive) := by
  unfold receive at h
  split at h
  · next bytes reads hrunning hreads =>
    split at h
    · next error receiver hrun =>
      cases h
      exact .fails hrunning hreads rfl rfl hrun rfl rfl rfl
    · next receiver hrun =>
      cases h
      exact .receive hrunning hreads rfl rfl rfl hrun rfl
  · cases h

theorem took_gather {count : Nat} (h : c.gather count = some d) :
    Took c d (.fire (.gather count)) := by
  unfold gather at h
  split at h
  · next hidle =>
    split at h
    · cases h
      refine .passes rfl (quiet_of_queue rfl rfl rfl rfl ?_) rfl rfl
      rw [hidle]
      rfl
    · cases h
  · cases h

theorem took_write {count : Nat} (h : c.write count = some d) :
    Took c d (.fire (.write count)) := by
  have hwriter : c.writer.hasStopped = false ∧ d.writer.hasStopped = false := by
    cases wrote_write h with
    | write before writer => exact ⟨by rw [before]; rfl, by rw [writer]; rfl⟩
    | giveUp ends => rcases ends with ends | ends <;> cases ends
    | beside others => cases others
  have hwriter : d.writer.hasStopped = c.writer.hasStopped := hwriter.2.trans hwriter.1.symm
  unfold write at h
  split at h
  · split at h
    · cases h
    · split at h
      · cases h
      · split at h
        · cases h
        · dsimp only at h
          split at h
          · cases h
            exact .passes rfl (quiet_of_eq rfl rfl rfl hwriter) rfl rfl
          · split at h
            · cases h
            · cases h
              exact .passes rfl (quiet_of_eq rfl rfl rfl hwriter) rfl rfl
  · cases h

theorem took_flush (h : c.flush = some d) : Took c d (.fire .flush) := by
  unfold flush at h
  split at h
  · next hwriter =>
    cases h
    refine .passes rfl (quiet_of_queue rfl rfl rfl rfl ?_) rfl rfl
    rw [hwriter]
    rfl
  · cases h

theorem took_fail (h : c.fail = some d) : Took c d (.fire .fail) := by
  unfold fail at h
  split at h
  · split at h
    · next hbroken =>
      cases h
      exact .gone hbroken (halts_giveUp .failed c)
    · cases h
  · cases h

theorem took_stopReader (h : c.stopReader = some d) : Took c d (.fire .stopReader) := by
  unfold stopReader at h
  split at h
  · next hcan =>
    cases h
    have hcancelled := (Bool.and_eq_true_iff.mp hcan).1
    have hhalts := halts_reader (rfl : Reader.stopped.hasStopped = true) c
    rw [cancel_of_isCancelled hcancelled] at hhalts
    exact .follows rfl (.inl hcancelled) hhalts
  · cases h

theorem took_stopReceiver (h : c.stopReceiver = some d) : Took c d (.fire .stopReceiver) := by
  unfold stopReceiver at h
  split at h
  · next hcan =>
    cases h
    obtain ⟨-, hstop⟩ := Bool.and_eq_true_iff.mp hcan
    refine .follows rfl ?_ ⟨rfl, rfl, fun hreader => ⟨hreader, rfl⟩, .inr rfl, rfl, id⟩
    rcases Bool.or_eq_true_iff.mp hstop with hcancelled | hend
    · exact .inl hcancelled
    · exact .inr (.inl (Bool.and_eq_true_iff.mp hend).2)
  · cases h

theorem took_stopWriter (h : c.stopWriter = some d) : Took c d (.fire .stopWriter) := by
  unfold stopWriter at h
  split at h
  · next hcan =>
    cases h
    have hcancelled := (Bool.and_eq_true_iff.mp hcan).1
    have hhalts := halts_giveUp .stopped c
    have hstill : (c.giveUp .stopped).isCancelled = true := hcancelled
    rw [cancel_of_isCancelled hstill] at hhalts
    exact .follows rfl (.inl hcancelled) hhalts
  · cases h

theorem took_finish (h : c.finish = some d) : Took c d (.fire .finish) := by
  unfold finish at h
  split at h
  · next hend =>
    cases h
    have hstopped : c.writer.hasStopped = true := by simp_all
    refine .follows rfl (.inr (.inr (.inr hstopped)))
      ⟨Session.isClosed_shutdown c.session, rfl, fun hreader => ⟨hreader, rfl⟩, .inl rfl, rfl,
        fun hopen => ?_⟩
    rw [← hopen]
    exact (congrArg SendQueue.isOpen (queue_shutdown c.session)).symm
  · cases h

theorem took_fire {event : Event} (h : c.fire event = some d) : Took c d (.fire event) := by
  cases event with
  | ask => exact took_ask h
  | read count => exact took_read h
  | failRead => exact took_failRead h
  | handOver => exact took_handOver h
  | receive => exact took_receive h
  | gather count => exact took_gather h
  | write count => exact took_write h
  | flush => exact took_flush h
  | fail => exact took_fail h
  | stopReader => exact took_stopReader h
  | stopReceiver => exact took_stopReceiver h
  | stopWriter => exact took_stopWriter h
  | finish => exact took_finish h

theorem took_move {move : Move} (h : c.move move = some d) : Took c d move := by
  cases move with
  | fire event => exact took_fire h
  | sendRaw bytes =>
    cases h
    exact took_use rfl (SendQueue.grows_sendRaw bytes _)
  | send csid payload =>
    cases h
    exact took_use rfl (SendQueue.grows_send csid payload _)
  | setChunkSize size announcement =>
    cases h
    exact took_use rfl (SendQueue.grows_setChunkSize size announcement _)
  | arrive bytes =>
    cases h
    refine .arrive (quiet_of_eq rfl rfl rfl rfl) ?_ rfl
    simp only [waiting, Connection.arrive, List.append_assoc]
  | endInput | leave | takeWritten =>
    cases h
    exact .passes rfl (quiet_of_eq rfl rfl rfl rfl) rfl rfl
  | cancel =>
    cases h
    exact .cancel ⟨rfl, rfl, fun hreader => ⟨hreader, rfl⟩, .inl rfl, rfl, id⟩

end Connection

end RtmpEndpoint
