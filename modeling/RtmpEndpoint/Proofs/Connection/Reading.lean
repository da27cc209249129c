import RtmpEndpoint.Proofs.Connection.Sizing
import RtmpEndpoint.Proofs.Connection.Stopping

/-!
# What is read

A read of nothing says that there will be no more input, but a read that asks for nothing gets
nothing as well. So the reader takes all that its peer sends, and stops of its own accord at the end
of the input only, as long as every read asks for something. After the handshake every read does.
Before that reads ask for what the operator chose.
-/

namespace RtmpEndpoint

theorem Flow.ReadSize.next_pos {r : Flow.ReadSize}
    (h : r.isHandshakeComplete = false → 0 < r.handshake) : 0 < r.next := by
  unfold next chunkOverhead max
  split
  · omega
  · next hopening => exact h (Bool.eq_false_of_not_eq_true hopening)

namespace Connection

variable {c d : Connection} {first : Receiver}

/-! ## What a read asks for -/

/-- Whether it is the reader that does it. -/
def Event.isReaders : Event → Bool
  | ask | read _ | failRead | handOver | stopReader => true
  | _ => false

theorem reader_fire {event : Event} (hothers : event.isReaders = false)
    (h : c.fire event = some d) : d.reader = c.reader := by
  cases event with
  | ask | read | failRead | handOver | stopReader => cases hothers
  | receive =>
    simp only [fire, receive] at h
    split at h
    · split at h <;> cases h <;> rfl
    · cases h
  | gather count =>
    simp only [fire, gather] at h
    split at h
    · split at h <;> cases h
      rfl
    · cases h
  | write count =>
    simp only [fire, write] at h
    split at h
    · split at h
      · cases h
      · split at h
        · cases h
        · split at h
          · cases h
          · split at h
            · cases h
              rfl
            · split at h <;> cases h
              rfl
    · cases h
  | flush =>
    simp only [fire, flush] at h
    split at h <;> cases h
    rfl
  | fail =>
    simp only [fire, fail] at h
    split at h
    · split at h <;> cases h
      rfl
    · cases h
  | stopReceiver =>
    simp only [fire, stopReceiver] at h
    split at h <;> cases h
    rfl
  | stopWriter =>
    simp only [fire, stopWriter] at h
    split at h <;> cases h
    rfl
  | finish =>
    simp only [fire, finish] at h
    split at h <;> cases h
    rfl

theorem asking_fire {event : Event} {size : Nat} (h : c.fire event = some d)
    (hasks : d.reader = .asking size) : c.reader = .asking size ∨ size = c.readSize := by
  cases event with
  | ask =>
    simp only [fire, ask] at h
    split at h <;> cases h
    cases hasks
    exact .inr rfl
  | read count =>
    simp only [fire, read] at h
    split at h
    · split at h
      · split at h <;> cases h
        cases hasks
      · split at h
        · split at h <;> cases h
          cases hasks
        · cases h
    · cases h
  | failRead =>
    simp only [fire, failRead] at h
    split at h <;> cases h
    cases hasks
  | handOver =>
    simp only [fire, handOver] at h
    split at h
    · split at h
      · cases h
        cases hasks
      · split at h <;> cases h
        cases hasks
    · cases h
  | stopReader =>
    simp only [fire, stopReader] at h
    split at h <;> cases h
    cases hasks
  | receive | gather | write | flush | fail | stopReceiver | stopWriter | finish =>
    exact .inl ((reader_fire rfl h).symm.trans hasks)

/-- A read asks for what the read size is when it begins. -/
theorem asking_move {move : Move} {size : Nat} (h : c.move move = some d)
    (hasks : d.reader = .asking size) : c.reader = .asking size ∨ size = c.readSize := by
  cases move with
  | fire event => exact asking_fire h hasks
  | sendRaw | send | setChunkSize | arrive | endInput | leave | takeWritten | cancel =>
    cases h
    exact .inl hasks

/-! ## The receiver of a connection -/

theorem comesTo_receive (hc : first.ComesTo c.receiver) (h : c.receive = some d) :
    first.ComesTo d.receiver := by
  unfold receive at h
  split at h
  · next bytes reads _ _ =>
    have hnext := hc.process bytes
    split at h
    · next error r hrun =>
      rw [hrun] at hnext
      cases h
      exact hnext.meanwhile r.link.session.close
    · next r hrun =>
      rw [hrun] at hnext
      cases h
      exact hnext
  · cases h

/-- Whatever happens to a connection, its receiver takes input or others use its session. -/
theorem comesTo_move {move : Move} (hc : first.ComesTo c.receiver) (h : c.move move = some d) :
    first.ComesTo d.receiver := by
  have hsame {session : Session} (hd : d.receiver = c.receiver.withSession session) :
      first.ComesTo d.receiver := hd ▸ hc.meanwhile session
  cases took_move h with
  | passes _ quiet => exact hsame quiet.receiver
  | handOver quiet => exact hsame quiet.receiver
  | arrive quiet => exact hsame quiet.receiver
  | receive | fails => exact comesTo_receive hc h
  | ends _ _ halts => exact hsame halts.receiver
  | readFails _ halts => exact hsame halts.receiver
  | gone _ halts => exact hsame halts.receiver
  | cancel halts => exact hsame halts.receiver
  | follows _ _ halts => exact hsame halts.receiver

namespace Intake

open Receiver (sevens plainOpening)

variable {a b : Intake}

/-- The reads that have been handed over, in order. The receiver has taken those in front. -/
def delivered (a : Intake) : List Bytes := a.taken ++ a.connection.reads

/-- Every read asks for something. -/
structure Asking (first : Receiver) (a : Intake) : Prop where
  receiver : first.ComesTo a.connection.receiver
  size : ∀ size, a.connection.reader = .asking size → 0 < size

theorem connection_after (a : Intake) (d : Connection) (move : Move) :
    (a.after d move).connection = d := by
  cases move with
  | fire event => cases event <;> rfl
  | _ => rfl

/-- If reads of the handshake ask for something, so do all that come after them. -/
theorem Asking.move {move : Move} {handshake : Nat} (hfirst : first.Sized handshake)
    (hpos : 0 < handshake) (h : a.Asking first) (hmove : a.move move = some b) :
    b.Asking first := by
  obtain ⟨d, hd, rfl⟩ := Option.map_eq_some_iff.mp hmove
  have hsized : a.connection.receiver.Sized handshake := hfirst.comesTo h.receiver
  have hnext : 0 < a.connection.readSize :=
    Flow.ReadSize.next_pos fun _ => hsized.handshake.symm ▸ hpos
  constructor
  · rw [connection_after]
    exact comesTo_move h.receiver hd
  · intro size hasks
    rw [connection_after] at hasks
    rcases asking_move hd hasks with hsame | rfl
    · exact h.size size hsame
    · exact hnext

/-! ## Nothing is lost -/

/-- What a reader does that has not been stopped. -/
structure Lossless (a : Intake) : Prop where
  goes : a.connection.reader.hasStopped = false
  /-- All that was sent is handed over, or held by the reader, or still to be read. -/
  all : a.sent = a.delivered.flatten ++ a.connection.reader.held ++ a.connection.inbox
  /-- What a read can bring: some of what has come, or nothing at the end. -/
  brings : ∀ size, a.connection.reader = .asking size → 0 < size ∧
    ∀ count, (a.move (.fire (.read count))).isSome = true ↔
      if count = 0 then a.connection.inbox = [] ∧ a.connection.isEnded = true
      else count ≤ size ∧ count ≤ a.connection.inbox.length
  /-- When the reader finds the end, all is handed over. -/
  ends : ∀ b, a.move (.fire (.read 0)) = some b →
    a.connection.isEnded = true ∧ b.delivered.flatten = b.sent ∧
      b.connection.reader.hasStopped = true ∧ b.connection.isCancelled = true

theorem isSome_move_read (count : Nat) :
    (a.move (.fire (.read count))).isSome = (a.connection.read count).isSome :=
  Option.isSome_map

theorem asking_of_read {count : Nat} (h : c.read count = some d) :
    ∃ size, c.reader = .asking size := by
  unfold read at h
  split at h
  · next size hasks => exact ⟨size, hasks⟩
  · cases h

/-- What a read can bring that asks for something. -/
theorem isSome_read_iff {size : Nat} (hasks : c.reader = .asking size) (hpos : 0 < size)
    (count : Nat) : (c.read count).isSome = true ↔
      if count = 0 then c.inbox = [] ∧ c.isEnded = true
      else count ≤ size ∧ count ≤ c.inbox.length := by
  unfold read
  rw [hasks]
  dsimp only
  split
  · rw [← List.isEmpty_iff]
    split
    · next hend => simpa using hend.resolve_left (Nat.ne_of_gt hpos)
    · next hend => simpa using fun hempty hended => hend (.inr ⟨hempty, hended⟩)
  · split
    · next hle =>
      by_cases hlen : count ≤ c.inbox.length
      · rw [Bytes.split?_of_le hlen]
        simp [hle, hlen]
      · rw [Bytes.split?_eq_none_iff.mpr (Nat.lt_of_not_le hlen)]
        simp [hlen]
    · next hle => simp [hle]

theorem asking_start (session : Session) (nonce : Nonce) (capacity : Nat) :
    (start session nonce capacity).Asking
      (Connection.accept session nonce capacity).receiver :=
  ⟨.meanwhile .start { session with queue := {} }, fun _ hasks => by cases hasks⟩

theorem delivered_flatten (a : Intake) :
    a.delivered.flatten = a.input ++ a.connection.reads.flatten := List.flatten_append

/-- A reader that asks for something in every read loses nothing. -/
theorem Kept.lossless (h : a.Kept first) (hgoes : a.connection.isCancelled = false)
    (hasking : ∀ size, a.connection.reader = .asking size → 0 < size) : a.Lossless := by
  have hreader : a.connection.reader.hasStopped = false :=
    Bool.eq_false_of_not_eq_true fun hreader => (h.running hgoes).1 (.inr (.inl hreader))
  have hall := h.all hreader
  refine ⟨hreader, ?_, fun size hasks => ⟨hasking size hasks, fun count => ?_⟩,
    fun b hmove => ?_⟩
  · rw [hall, delivered_flatten, Connection.waiting]
    simp only [List.append_assoc]
  · rw [isSome_move_read]
    exact isSome_read_iff hasks (hasking size hasks) count
  · obtain ⟨d, hd, rfl⟩ := Option.map_eq_some_iff.mp hmove
    obtain ⟨size, hasks⟩ := asking_of_read hd
    have hcan := (isSome_read_iff hasks (hasking size hasks) 0).mp (Option.isSome_of_eq_some hd)
    rw [if_pos rfl] at hcan
    cases read_zero hd
    refine ⟨hcan.2, ?_, rfl, rfl⟩
    rw [delivered_flatten]
    change a.input ++ a.connection.reads.flatten = a.sent
    rw [hall, Connection.waiting, hasks, hcan.1, List.append_nil]
    exact congrArg (a.input ++ ·) (List.append_nil _).symm

/-- The reader takes all that its peer sends and stops of its own accord at the end of the input
only, if and only if the operator lets the reads of the handshake ask for something. The chunk sizes
of the peer have no say in it. -/
theorem lossless_iff {session : Session} {nonce : Nonce} {capacity : Nat}
    (hopen : session.isClosed = false) :
    0 < session.config.handshakeReadSize ↔
      ∀ moves a, (start session nonce capacity).run moves = some a →
        a.connection.isCancelled = false → a.Lossless := by
  constructor
  · intro hpos moves a hrun hgoes
    have hasking : a.Asking (Connection.accept session nonce capacity).receiver :=
      preserved_of_moves
        (fun _ _ _ hasking hmove =>
          hasking.move (Receiver.sized_accept session nonce capacity) hpos hmove)
        (asking_start session nonce capacity) hrun
    exact ((kept_start session nonce capacity).run hrun).lossless hgoes hasking.size
  · intro hall
    have hfirst := hall [.fire .ask] _ rfl hopen
    exact (hfirst.brings session.config.handshakeReadSize rfl).1

/-- Two bytes come and are read one by one. Then the input ends. -/
def openingAndEnd : List Move :=
  [.arrive [3, 0], .fire .ask, .fire (.read 1), .fire .handOver, .fire .ask, .fire (.read 1),
    .fire .handOver, .fire .receive, .endInput, .fire .ask]

theorem lossless_iff_twoBytes :
    ∃ a b, (start {} sevens 65536).run openingAndEnd = some a ∧ a.connection.isCancelled = false ∧
      a.move (.fire (.read 0)) = some b ∧ b.delivered = [[3], [0]] ∧
      b.delivered.flatten = b.sent := by
  have hruns (nonce : Nonce) : ((start {} nonce 65536).run openingAndEnd).bind (fun a =>
      (a.move (.fire (.read 0))).map fun b => (a.connection.isCancelled, b.delivered))
      = some (false, [[3], [0]]) := by
    cbv
  obtain ⟨a, hrun, hrest⟩ := Option.bind_eq_some_iff.mp (hruns sevens)
  obtain ⟨b, hread, hend⟩ := Option.map_eq_some_iff.mp hrest
  obtain ⟨hgoes, hdelivered⟩ := Prod.mk.inj hend
  have hlossless := (lossless_iff rfl).mp (by decide) openingAndEnd a hrun hgoes
  exact ⟨a, b, hrun, hgoes, hread, hdelivered, (hlossless.ends b hread).2.1⟩

/-- The first read of a reader that asks for nothing finds the end of the input, whatever there
is. -/
theorem nothing_read (nonce : Nonce) (bytes : Bytes) :
    ∃ a b, (start { config := { handshakeReadSize := 0 } } nonce 65536).run
        [.arrive bytes, .fire .ask] = some a ∧
      a.connection.isCancelled = false ∧ a.connection.isEnded = false ∧ a.sent = bytes ∧
      a.move (.fire (.read 0)) = some b ∧ b.connection.reader.hasStopped = true ∧
      b.connection.isCancelled = true ∧ b.delivered = [] ∧ b.connection.inbox = bytes :=
  ⟨_, _, rfl, rfl, rfl, rfl, rfl, rfl, rfl, rfl, rfl⟩

/-- So it is with the opening of a client that is still there. -/
theorem nothing_read_of_an_opening :
    ∃ a b, (start { config := { handshakeReadSize := 0 } } sevens 65536).run
        [.arrive plainOpening, .fire .ask] = some a ∧
      a.connection.isCancelled = false ∧ a.connection.isEnded = false ∧ a.sent = plainOpening ∧
      a.move (.fire (.read 0)) = some b ∧ b.connection.reader.hasStopped = true ∧
      b.connection.isCancelled = true ∧ b.delivered = [] ∧ b.connection.inbox = plainOpening :=
  nothing_read sevens plainOpening

end Intake

end Connection

end RtmpEndpoint
