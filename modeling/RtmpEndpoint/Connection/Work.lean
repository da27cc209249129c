import RtmpEndpoint.Connection.Basic

/-!
# Waiting work

Every event uses up some of the work that waits, so whatever the order of events, a connection
comes to rest until its peer does something.
-/

namespace RtmpEndpoint

def Reader.work : Reader → Nat
  | .ready => 2
  | .asking _ => 1
  | .holding _ => 3
  | .stopped | .failed => 0

/-- A chunk is work even if it is empty. -/
def chunkWork : List Flow.QueuedChunk → Nat
  | [] => 0
  | chunk :: chunks => chunk.bytes.length + 2 + chunkWork chunks

def Writer.work : Writer → Nat
  | .idle => 1
  | .writing batch => chunkWork batch.chunks + 2
  | .stopped | .failed => 0

namespace Connection

def inputWork (c : Connection) : Nat := 3 * c.inbox.length + c.reader.work

def receiverWork (c : Connection) : Nat := c.reads.length + c.outcome.isNone.toNat

def outputWork (c : Connection) : Nat :=
  2 * chunkWork c.queue.chunks + c.writer.work + (!c.isFinished).toNat

/-- Input first: reading makes work for the receiver, and receiving makes work for the writer. -/
def Uses (after before : Connection) : Prop :=
  Prod.Lex (· < ·) (Prod.Lex (· < ·) (· < ·))
    (after.inputWork, after.receiverWork, after.outputWork)
    (before.inputWork, before.receiverWork, before.outputWork)

theorem Uses.trans {a b c : Connection} (h₁ : Uses a b) (h₂ : Uses b c) : Uses a c := by
  simp only [Uses, Prod.lex_def] at *
  omega

theorem Uses.input {after before : Connection} (h : after.inputWork < before.inputWork) :
    Uses after before := .left _ _ h

theorem Uses.receiver {after before : Connection} (hi : after.inputWork = before.inputWork)
    (h : after.receiverWork < before.receiverWork) : Uses after before := by
  rw [Uses, hi]
  exact .right _ (.left _ _ h)

theorem Uses.output {after before : Connection} (hi : after.inputWork = before.inputWork)
    (hr : after.receiverWork = before.receiverWork)
    (h : after.outputWork < before.outputWork) : Uses after before := by
  rw [Uses, hi, hr]
  exact .right _ (.right _ h)

@[simp] theorem inbox_setSession (s : Session) (c : Connection) :
    (c.setSession s).inbox = c.inbox := rfl
@[simp] theorem reader_setSession (s : Session) (c : Connection) :
    (c.setSession s).reader = c.reader := rfl
@[simp] theorem reads_setSession (s : Session) (c : Connection) :
    (c.setSession s).reads = c.reads := rfl
@[simp] theorem outcome_setSession (s : Session) (c : Connection) :
    (c.setSession s).outcome = c.outcome := rfl
@[simp] theorem writer_setSession (s : Session) (c : Connection) :
    (c.setSession s).writer = c.writer := rfl
@[simp] theorem isFinished_setSession (s : Session) (c : Connection) :
    (c.setSession s).isFinished = c.isFinished := rfl
@[simp] theorem queue_setSession (s : Session) (c : Connection) :
    (c.setSession s).queue = s.queue := rfl
@[simp] theorem queue_close (s : Session) : s.close.queue = s.queue := rfl

theorem queue_shutdown (s : Session) : s.shutdown.queue = s.queue := by
  have h (streams : List NetStream) (s : Session) :
      (streams.foldl (fun s stream => s.releaseChunkStream stream.chunkStreamId) s).queue
        = s.queue := by
    induction streams generalizing s with
    | nil => rfl
    | cons stream rest ih => exact ih _
  exact h _ _

theorem chunkWork_cons (chunk : Flow.QueuedChunk) (chunks : List Flow.QueuedChunk) :
    chunkWork (chunk :: chunks) = chunk.bytes.length + 2 + chunkWork chunks := rfl

theorem uses_ask {c d : Connection} (h : c.ask = some d) : Uses d c := by
  unfold ask at h
  split at h
  · next hr =>
    simp at h
    subst h
    exact .input (by simp [inputWork, hr, Reader.work])
  · simp at h

theorem uses_read {c d : Connection} {count : Nat} (h : c.read count = some d) : Uses d c := by
  unfold read at h
  split at h
  · next hr =>
    split at h
    · split at h <;> simp at h
      subst h
      exact .input (by simp [inputWork, cancel, hr, Reader.work])
    · split at h
      · split at h
        · next bytes inbox hs =>
          have := Bytes.length_of_split? hs
          simp at h
          subst h
          exact .input (by simp only [inputWork, hr, Reader.work]; omega)
        · simp at h
      · simp at h
  · simp at h

theorem uses_failRead {c d : Connection} (h : c.failRead = some d) : Uses d c := by
  unfold failRead at h
  split at h
  · next hr =>
    simp at h
    subst h
    exact .input (by simp [inputWork, cancel, hr, Reader.work])
  · simp at h

theorem uses_handOver {c d : Connection} (h : c.handOver = some d) : Uses d c := by
  unfold handOver at h
  split at h
  · next bytes hr =>
    split at h
    · simp at h
      subst h
      exact .input (by simp [inputWork, cancel, hr, Reader.work])
    · split at h <;> simp at h
      subst h
      exact .input (by simp [inputWork, hr, Reader.work])
  · simp at h

theorem uses_stopReader {c d : Connection} (h : c.stopReader = some d) : Uses d c := by
  unfold stopReader at h
  split at h <;> simp at h
  next hr =>
  subst h
  refine .input ?_
  have : 0 < c.reader.work := by
    cases hc : c.reader <;> simp_all [Reader.work, Reader.hasStopped]
  simp only [inputWork, Reader.work] at *
  omega

theorem uses_receive {c d : Connection} (h : c.receive = some d) : Uses d c := by
  unfold receive at h
  split at h
  · next bytes reads ho hr =>
    have hfewer (outcome : Option (Except ConnectionError Unit)) :
        reads.length + outcome.isNone.toNat < c.receiverWork := by
      have := Bool.toNat_le outcome.isNone
      simp only [receiverWork, ho, hr, List.length_cons, Option.isNone_none, Bool.toNat_true]
      omega
    split at h <;> cases h <;> exact .receiver rfl (hfewer _)
  · simp at h

theorem uses_stopReceiver {c d : Connection} (h : c.stopReceiver = some d) : Uses d c := by
  unfold stopReceiver at h
  simp only [Bool.and_eq_true, Option.ite_none_right_eq_some, Option.some.injEq] at h
  obtain ⟨⟨ho, -⟩, rfl⟩ := h
  exact .receiver rfl (by simp [receiverWork, cancel, ho])

theorem chunkWork_take_drop (count : Nat) (chunks : List Flow.QueuedChunk) :
    chunkWork (chunks.take count) + chunkWork (chunks.drop count) = chunkWork chunks := by
  induction chunks generalizing count with
  | nil => simp [chunkWork]
  | cons chunk chunks ih =>
    cases count with
    | zero => simp [chunkWork]
    | succ count =>
      rw [List.take_succ_cons, List.drop_succ_cons, chunkWork_cons, chunkWork_cons, ← ih count]
      omega

theorem uses_gather {c d : Connection} {count : Nat} (h : c.gather count = some d) :
    Uses d c := by
  unfold gather at h
  split at h
  · next hw =>
    split at h <;> simp at h
    next hc =>
    subst h
    have hsum := chunkWork_take_drop count c.queue.chunks
    have hpos : 2 ≤ chunkWork (c.queue.chunks.take count) := by
      cases hq : c.queue.chunks with
      | nil => simp [hq] at hc; omega
      | cons chunk chunks =>
        obtain ⟨n, rfl⟩ := Nat.exists_eq_succ_of_ne_zero (Nat.ne_of_gt hc.1)
        rw [List.take_succ_cons, chunkWork_cons]
        omega
    refine .output rfl rfl ?_
    simp only [outputWork, hw, Writer.work, setQueue, queue_setSession, writer_setSession,
      isFinished_setSession, Flow.SendQueue.take]
    omega
  · simp at h

theorem uses_write {c d : Connection} {count : Nat} (h : c.write count = some d) : Uses d c := by
  unfold write at h
  split at h
  · next batch hw =>
    split at h
    · simp at h
    · next chunk chunks hb =>
      split at h
      · simp at h
      · next bytes rest hs =>
        have := Bytes.length_of_split? hs
        split at h
        · simp at h
        · dsimp only at h
          split at h
          · simp at h
            subst h
            refine .output rfl rfl ?_
            simp only [outputWork, queue, session, hw, hb, Writer.work, chunkWork_cons]
            omega
          · split at h
            · simp at h
            · simp at h
              subst h
              refine .output rfl rfl ?_
              simp only [outputWork, queue, session, hw, hb, Writer.work, chunkWork_cons]
              omega
  · simp at h

theorem uses_flush {c d : Connection} (h : c.flush = some d) : Uses d c := by
  unfold flush at h
  split at h
  · next written completions hw =>
    simp at h
    subst h
    refine .output rfl rfl ?_
    simp [outputWork, hw, Writer.work, setQueue, Flow.SendQueue.complete, chunkWork]
  · simp at h

theorem outputWork_giveUp {c : Connection} {writer : Writer} (hw : writer.work = 0)
    (hc : 0 < c.writer.work) : (c.giveUp writer).outputWork < c.outputWork := by
  simp only [outputWork, giveUp, setQueue, queue_setSession, writer_setSession,
    isFinished_setSession, Flow.SendQueue.close, chunkWork, hw]
  omega

theorem uses_fail {c d : Connection} (h : c.fail = some d) : Uses d c := by
  unfold fail at h
  split at h
  · next hw =>
    split at h <;> simp at h
    subst h
    exact .output rfl rfl (outputWork_giveUp rfl (by simp [hw, Writer.work]))
  · simp at h

theorem uses_stopWriter {c d : Connection} (h : c.stopWriter = some d) : Uses d c := by
  unfold stopWriter at h
  split at h <;> simp at h
  next hc =>
  subst h
  refine .output rfl rfl (outputWork_giveUp rfl ?_)
  cases hw : c.writer <;> simp_all [Writer.work, Writer.hasStopped]

theorem uses_finish {c d : Connection} (h : c.finish = some d) : Uses d c := by
  unfold finish at h
  split at h <;> simp at h
  next hf =>
  subst h
  refine .output rfl rfl ?_
  simp only [Bool.and_eq_true, Bool.not_eq_eq_eq_not, Bool.not_true] at hf
  simp only [outputWork, queue_setSession, queue_shutdown, writer_setSession,
    isFinished_setSession, hf.2]
  exact Nat.lt_succ_self _

/-- Every event uses up work. -/
theorem uses_fire {c d : Connection} {event : Event} (h : c.fire event = some d) : Uses d c := by
  cases event with
  | ask => exact uses_ask h
  | read count => exact uses_read h
  | failRead => exact uses_failRead h
  | handOver => exact uses_handOver h
  | receive => exact uses_receive h
  | gather count => exact uses_gather h
  | write count => exact uses_write h
  | flush => exact uses_flush h
  | fail => exact uses_fail h
  | stopReader => exact uses_stopReader h
  | stopReceiver => exact uses_stopReceiver h
  | stopWriter => exact uses_stopWriter h
  | finish => exact uses_finish h

end Connection

end RtmpEndpoint
