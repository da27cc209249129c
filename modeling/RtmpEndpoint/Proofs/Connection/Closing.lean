import RtmpEndpoint.Connection.Basic
import RtmpEndpoint.Proofs.Connection.Violations

/-!
# What comes after a session is closed

A command can close the session, and that is looked at between two reads and nowhere else. So the
read in which the command came is taken to its end as if nothing had been closed, and no other read
is taken after it. From then on the streams of the session stay as they are until all of them are
dropped.
-/

namespace RtmpEndpoint

/-! ## A closed session stays closed -/

namespace Receiver

variable {r s : Receiver}

theorem isClosed_sendReply (reply : Handshake.Reply) {s : Session} (hclosed : s.isClosed = true) :
    (sendReply reply s).2.isClosed = true :=
  Session.lasts_isClosed.queueOnly
    (Session.queueOnly_bind (Session.queueOnly_onQueue _) fun _ => Session.queueOnly_onQueue _) _
    hclosed

theorem isClosed_afterPart (part : Except Chunk.AssembleError Chunk.Progress × Chunk.Assembler)
    (hclosed : r.link.session.isClosed = true) :
    (afterPart r part).2.link.session.isClosed = true := by
  obtain ⟨progress, assembler⟩ := part
  cases progress with
  | error error => exact hclosed
  | ok progress =>
    cases progress with
    | needMoreData => exact hclosed
    | advanced consumed next => exact hclosed
    | completed consumed payload =>
      have hreceive := (Link.heeds_receive payload { r.link with assembler }).isClosed _ hclosed
      rw [afterPart]
      cases hrun : Link.receive payload { r.link with assembler } with
      | mk result link =>
        rw [hrun] at hreceive
        cases result <;> exact hreceive

theorem isClosed_step {result : Except ConnectionError (Option Nat)} (hs : step r = (result, s))
    (hclosed : r.link.session.isClosed = true) : s.link.session.isClosed = true := by
  have hafter : (step r).2.link.session.isClosed = true := by
    cases hp : r.phase with
    | chunking =>
      rw [step_chunking hp]
      exact isClosed_afterPart _ hclosed
    | handshaking handshake =>
      unfold step
      rw [hp]
      split
      · next handshake' hphase hstage =>
        rw [takeC0C1_eq]
        unfold judge
        split
        · exact hclosed
        · exact hclosed
        · next judged _ =>
          have hsent := isClosed_sendReply judged.1 hclosed
          simp only [Link.onSession, Transition.focus]
          cases hrun : sendReply judged.1 r.link.session with
          | mk answer next =>
            rw [hrun] at hsent
            cases answer <;> exact hsent
      · rw [takeC2_eq]
        unfold judge
        split <;> exact hclosed
      · exact hclosed
      · next he => cases he
  rwa [hs] at hafter

theorem isClosed_counted (bytes : Nat) {link : Link} (hclosed : link.session.isClosed = true) :
    (Link.recordReceived bytes link).2.session.isClosed = true := by
  have hsent (sequenceNumber : UInt32) :
      (Session.sendControl (.acknowledgement sequenceNumber) link.session).2.isClosed = true :=
    Session.lasts_isClosed.queueOnly (Session.queueOnly_sendMessage _ _ _ _) _ hclosed
  unfold Link.recordReceived
  dsimp only
  split
  · exact hclosed
  · next sequenceNumber _ =>
    have hsent := hsent sequenceNumber
    split <;> simp_all

theorem isClosed_processOnto (hclosed : r.link.session.isClosed = true) (framed : Nat) :
    (processOnto framed r).2.link.session.isClosed = true := by
  fun_induction processOnto framed r with
  | case1 framed r error s hs => exact isClosed_step hs hclosed
  | case2 framed r n s hs ih => exact ih (isClosed_step hs hclosed)
  | case3 r s hs => exact isClosed_step hs hclosed
  | case4 framed r s hs hframed link hcount | case5 framed r s hs hframed error link hcount =>
    have hcounted := isClosed_counted framed (isClosed_step hs hclosed)
    rwa [hcount] at hcounted

theorem isClosed_process (bytes : Bytes) (hclosed : r.link.session.isClosed = true) :
    (process bytes r).2.link.session.isClosed = true :=
  isClosed_processOnto (r := r.push bytes) hclosed 0

/-! ## The rest of the read -/

/-- The receiver with another session. -/
def withSession (session : Session) (r : Receiver) : Receiver :=
  { r with link := { r.link with session } }

/-- Steps that succeed lead from one receiver to the next. -/
inductive Leads : Receiver → Receiver → Prop where
  | here (r : Receiver) : Leads r r
  | on {r s t : Receiver} {n : Nat} (hs : step r = (.ok (some n), s)) (h : Leads s t) : Leads r t

variable {t : Receiver} {session : Session}

theorem Leads.processOnto_eq (h : Leads r s) (framed : Nat) :
    ∃ framed', processOnto framed r = processOnto framed' s := by
  induction h generalizing framed with
  | here r => exact ⟨framed, rfl⟩
  | on hs h ih =>
    obtain ⟨framed', hrest⟩ := ih (framed + _)
    exact ⟨framed', (processOnto_some framed hs).trans hrest⟩

theorem Leads.isOpen (h : Leads r s) (hopen : r.queue.isOpen = true) : s.queue.isOpen = true := by
  induction h with
  | here r => exact hopen
  | on hs h ih => exact ih (isOpen_step hs hopen)

theorem phase_of_step {result : Except ConnectionError (Option Nat)} (hp : r.phase = .chunking)
    (hs : step r = (result, s)) : s.phase = .chunking := by
  have hphase := phase_afterPart r (r.link.assembler.step r.stage r.buffer.bytes)
  rw [← step_chunking hp, hs, hp] at hphase
  exact hphase

/-- A step does the same whatever the session is, except to the session. -/
theorem step_withSession {result : Except ConnectionError (Option Nat)} (hs : step r = (result, s))
    (hp : r.phase = .chunking) (hopen : r.queue.isOpen = true)
    (hsession : session.queue.isOpen = true) :
    ∃ t, step (r.withSession session) = (result, s.withSession t) ∧ t.queue.isOpen = true := by
  have hsame : ∃ t, step (r.withSession session) = ((step r).1, (step r).2.withSession t) := by
    have hpart : (r.withSession session).link.assembler.step (r.withSession session).stage
        (r.withSession session).buffer.bytes = r.link.assembler.step r.stage r.buffer.bytes := rfl
    rw [step_chunking hp, step_chunking (r := r.withSession session) hp, hpart]
    obtain ⟨progress, assembler⟩ := r.link.assembler.step r.stage r.buffer.bytes
    cases progress with
    | error error => exact ⟨session, rfl⟩
    | ok progress =>
      cases progress with
      | needMoreData => exact ⟨session, rfl⟩
      | advanced consumed next => exact ⟨session, rfl⟩
      | completed consumed payload =>
        obtain ⟨t, hsame⟩ := (Link.heeds_receive payload { r.link with assembler }).impartial
          hopen hsession
        refine ⟨t, ?_⟩
        simp only [afterPart, withSession, hsame]
        cases Link.receive payload { r.link with assembler } with
        | mk result link => cases result <;> rfl
  obtain ⟨t, hsame⟩ := hsame
  rw [hs] at hsame
  exact ⟨t, hsame, isOpen_step hsame hsession⟩

/-- What is handed on of a read has nothing to do with whether the session is closed. -/
theorem handed_withSession (hp : r.phase = .chunking) (hopen : r.queue.isOpen = true)
    (hsession : session.queue.isOpen = true) : handed (r.withSession session) = handed r := by
  have hcompletes (r : Receiver) (session : Session) :
      (r.withSession session).completes? = r.completes? := rfl
  fun_induction handed r generalizing session with
  | case1 r n s hs ih =>
    obtain ⟨t, hsame, ht⟩ := step_withSession hs hp hopen hsession
    rw [handed_some hsame, hcompletes, ih (phase_of_step hp hs) (isOpen_step hs hopen) ht]
  | case2 r s hs =>
    obtain ⟨t, hsame, -⟩ := step_withSession hs hp hopen hsession
    rw [handed_none hsame, completes?_of_none hs]
    rfl
  | case3 r error s hs =>
    obtain ⟨t, hsame, -⟩ := step_withSession hs hp hopen hsession
    rw [handed_error hsame, hcompletes]

/-- Nor has whether the read fails. -/
theorem result_withSession (hp : r.phase = .chunking) (hopen : r.queue.isOpen = true)
    (hsession : session.queue.isOpen = true) (framed : Nat) :
    (processOnto framed (r.withSession session)).1 = (processOnto framed r).1 := by
  induction r using handed.induct generalizing framed session with
  | case1 r n s hs ih =>
    obtain ⟨t, hsame, ht⟩ := step_withSession hs hp hopen hsession
    rw [processOnto_some framed hs, processOnto_some framed hsame]
    exact ih (phase_of_step hp hs) (isOpen_step hs hopen) ht _
  | case2 r s hs =>
    obtain ⟨t, hsame, -⟩ := step_withSession hs hp hopen hsession
    obtain ⟨counts, log, -, -, hwaits⟩ := processOnto_waiting framed hs hopen
    obtain ⟨counts', log', -, -, hwaits'⟩ := processOnto_waiting framed hsame hsession
    rw [hwaits, hwaits']
  | case3 r error s hs =>
    obtain ⟨t, hsame, -⟩ := step_withSession hs hp hopen hsession
    rw [processOnto_error framed hs, processOnto_error framed hsame]

end Receiver

/-! ## Dropping everything -/

namespace Session

theorem shutdown_requeue (queue : Flow.SendQueue) (s : Session) :
    ({ s with queue } : Session).shutdown = { s.shutdown with queue } := by
  have hreleased (streams : List NetStream) (s : Session) :
      streams.foldl (fun s stream => s.releaseChunkStream stream.chunkStreamId)
          ({ s with queue } : Session)
        = { streams.foldl (fun s stream => s.releaseChunkStream stream.chunkStreamId) s with
          queue } := by
    induction streams generalizing s with
    | nil => rfl
    | cons stream streams ih => exact ih (s.releaseChunkStream stream.chunkStreamId)
  exact hreleased s.netStreams.values
    { s.close with netStreams := .empty, registry := s.registry.clear, connection := none }

theorem isClosed_shutdown (s : Session) : s.shutdown.isClosed = true := by
  have hreleased (streams : List NetStream) (s : Session) :
      (streams.foldl (fun s stream => s.releaseChunkStream stream.chunkStreamId) s).isClosed
        = s.isClosed := by
    induction streams generalizing s with
    | nil => rfl
    | cons stream streams ih => exact ih (s.releaseChunkStream stream.chunkStreamId)
  exact hreleased _ _

theorem close_of_isClosed {s : Session} (h : s.isClosed = true) : s.close = s := by
  obtain ⟨_, _, _, _, _, _, _, isClosed, _⟩ := s
  subst h
  rfl

end Session

/-! ## After the read -/

namespace Connection

open RtmpEndpoint.Receiver (withSession Leads)

/-- What can become of a connection, in any order of events and whatever the peer does. -/
inductive Becomes (c : Connection) : Connection → Prop where
  | here : Becomes c c
  | fire {d e : Connection} (h : Becomes c d) {event : Event} (he : d.fire event = some e) :
      Becomes c e
  | arrive {d : Connection} (h : Becomes c d) (bytes : Bytes) : Becomes c (d.arrive bytes)
  | endInput {d : Connection} (h : Becomes c d) : Becomes c d.endInput
  | leave {d : Connection} (h : Becomes c d) : Becomes c d.leave
  | takeWritten {d : Connection} (h : Becomes c d) : Becomes c d.takeWritten.2
  | cancel {d : Connection} (h : Becomes c d) : Becomes c d.cancel

/-- Nothing more is received: the reads that wait go on waiting, and the receiver is as it was, with
its session but for the queue, or with all streams of it dropped once the connection is finished. -/
structure Rests (c d : Connection) : Prop where
  outcome : d.outcome = c.outcome
  reads : d.reads = c.reads
  receiver : ∃ queue,
    (d.isFinished = c.isFinished ∧ d.receiver = c.receiver.withSession { c.session with queue }) ∨
    (c.isFinished = false ∧ d.isFinished = true ∧
      d.receiver = c.receiver.withSession { c.session.shutdown with queue })

variable {c d e : Connection}

theorem rests_of_queue {queue : Flow.SendQueue} (outcome : d.outcome = c.outcome)
    (reads : d.reads = c.reads) (isFinished : d.isFinished = c.isFinished)
    (receiver : d.receiver = c.receiver.withSession { c.session with queue }) : Rests c d :=
  ⟨outcome, reads, queue, .inl ⟨isFinished, receiver⟩⟩

/-- What is no concern of the receiver. -/
theorem rests_of_eq (outcome : d.outcome = c.outcome) (reads : d.reads = c.reads)
    (isFinished : d.isFinished = c.isFinished) (receiver : d.receiver = c.receiver) : Rests c d :=
  ⟨outcome, reads, c.queue, .inl ⟨isFinished, receiver⟩⟩

theorem Rests.trans (h : Rests c d) (h' : Rests d e) : Rests c e where
  outcome := h'.outcome.trans h.outcome
  reads := h'.reads.trans h.reads
  receiver := by
    obtain ⟨queue, hd⟩ := h.receiver
    obtain ⟨queue', he⟩ := h'.receiver
    refine ⟨queue', ?_⟩
    rcases hd with ⟨hfinished, hd⟩ | ⟨hrunning, hfinished, hd⟩ <;>
      rcases he with ⟨hfinished', he⟩ | ⟨hrunning', hfinished', he⟩
    · refine .inl ⟨hfinished'.trans hfinished, ?_⟩
      rw [he, session, hd]
      rfl
    · refine .inr ⟨hfinished.symm.trans hrunning', hfinished', ?_⟩
      have hsession : d.session = { c.session with queue } := congrArg (·.link.session) hd
      rw [he, hsession, Session.shutdown_requeue, hd]
      rfl
    · refine .inr ⟨hrunning, hfinished'.trans hfinished, ?_⟩
      rw [he, session, hd]
      rfl
    · cases hfinished.symm.trans hrunning'

theorem Rests.isCancelled (h : Rests c d) (hclosed : c.isCancelled = true) :
    d.isCancelled = true := by
  obtain ⟨queue, ⟨-, hd⟩ | ⟨-, -, hd⟩⟩ := h.receiver
  · rw [Connection.isCancelled, session, hd]
    exact hclosed
  · rw [Connection.isCancelled, session, hd]
    exact Session.isClosed_shutdown c.session

theorem cancel_of_isCancelled (h : c.isCancelled = true) : c.cancel = c := by
  rw [cancel, Session.close_of_isClosed h]
  rfl

theorem rests_giveUp (writer : Writer) (c : Connection) : Rests c (c.giveUp writer) :=
  rests_of_queue rfl rfl rfl rfl

theorem rests_read {count : Nat} (h : c.read count = some d) (hclosed : c.isCancelled = true) :
    Rests c d := by
  unfold read at h
  rw [cancel_of_isCancelled hclosed] at h
  split at h
  · split at h
    · split at h
      · cases h
        exact rests_of_eq rfl rfl rfl rfl
      · cases h
    · split at h
      · split at h
        · cases h
          exact rests_of_eq rfl rfl rfl rfl
        · cases h
      · cases h
  · cases h

theorem rests_failRead (h : c.failRead = some d) (hclosed : c.isCancelled = true) : Rests c d := by
  unfold failRead at h
  rw [cancel_of_isCancelled hclosed] at h
  split at h
  · cases h
    exact rests_of_eq rfl rfl rfl rfl
  · cases h

theorem rests_handOver (h : c.handOver = some d) (hdone : c.outcome.isSome = true)
    (hclosed : c.isCancelled = true) : Rests c d := by
  unfold handOver at h
  rw [cancel_of_isCancelled hclosed] at h
  split at h
  · rw [if_pos hdone] at h
    cases h
    exact rests_of_eq rfl rfl rfl rfl
  · cases h

theorem rests_gather {count : Nat} (h : c.gather count = some d) : Rests c d := by
  unfold gather at h
  split at h
  · split at h
    · cases h
      exact rests_of_queue rfl rfl rfl rfl
    · cases h
  · cases h

theorem rests_write {count : Nat} (h : c.write count = some d) : Rests c d := by
  unfold write at h
  split at h
  · split at h
    · cases h
    · split at h
      · cases h
      · split at h
        · cases h
        · dsimp only at h
          split at h
          · cases h
            exact rests_of_eq rfl rfl rfl rfl
          · split at h
            · cases h
            · cases h
              exact rests_of_eq rfl rfl rfl rfl
  · cases h

theorem rests_fail (h : c.fail = some d) (hclosed : c.isCancelled = true) : Rests c d := by
  unfold fail at h
  split at h
  · split at h
    · cases h
      have hgaveUp := rests_giveUp .failed c
      rwa [cancel_of_isCancelled (hgaveUp.isCancelled hclosed)]
    · cases h
  · cases h

/-- Once the receiver has stopped and the session is closed, whatever happens next is no concern of
the receiver, or it is the end. -/
theorem rests_fire {event : Event} (h : c.fire event = some d) (hdone : c.outcome.isSome = true)
    (hclosed : c.isCancelled = true) : Rests c d := by
  obtain ⟨outcome, houtcome⟩ := Option.isSome_iff_exists.mp hdone
  cases event with
  | ask =>
    simp only [fire, ask] at h
    split at h
    · cases h
      exact rests_of_eq rfl rfl rfl rfl
    · cases h
  | read count => exact rests_read h hclosed
  | failRead => exact rests_failRead h hclosed
  | handOver => exact rests_handOver h hdone hclosed
  | receive => simp only [fire, receive, houtcome, reduceCtorEq] at h
  | gather count => exact rests_gather h
  | write count => exact rests_write h
  | flush =>
    simp only [fire, flush] at h
    split at h
    · cases h
      exact rests_of_queue rfl rfl rfl rfl
    · cases h
  | fail => exact rests_fail h hclosed
  | stopReader =>
    simp only [fire, stopReader] at h
    split at h
    · cases h
      exact rests_of_eq rfl rfl rfl rfl
    · cases h
  | stopReceiver => simp [fire, stopReceiver, houtcome] at h
  | stopWriter =>
    simp only [fire, stopWriter] at h
    split at h
    · cases h
      exact rests_giveUp .stopped c
    · cases h
  | finish =>
    simp only [fire, finish] at h
    split at h
    · next hend =>
      cases h
      have hrunning : c.isFinished = false := by simp_all
      exact ⟨rfl, rfl, c.session.shutdown.queue, .inr ⟨hrunning, rfl, rfl⟩⟩
    · cases h

/-- So nothing more is received, whatever happens and in whatever order. -/
theorem rests_becomes (h : Becomes c d) (hdone : c.outcome.isSome = true)
    (hclosed : c.isCancelled = true) : Rests c d := by
  induction h with
  | here => exact rests_of_eq rfl rfl rfl rfl
  | fire h he ih =>
    have hdone := ih.outcome ▸ hdone
    exact ih.trans (rests_fire he hdone (ih.isCancelled hclosed))
  | arrive h bytes ih => exact ih.trans (rests_of_eq rfl rfl rfl rfl)
  | endInput h ih => exact ih.trans (rests_of_eq rfl rfl rfl rfl)
  | leave h ih => exact ih.trans (rests_of_eq rfl rfl rfl rfl)
  | takeWritten h ih => exact ih.trans (rests_of_eq rfl rfl rfl rfl)
  | cancel h ih =>
    rw [cancel_of_isCancelled (ih.isCancelled hclosed)]
    exact ih

/-- A read that a command closes the session in is received, and its result is the outcome. -/
theorem receive_closing {bytes : Bytes} {reads : List Bytes} {r : Receiver}
    (hrunning : c.outcome = none) (hreads : c.reads = bytes :: reads)
    (hleads : Leads (c.receiver.push bytes) r) (hclosed : r.link.session.isClosed = true) :
    ∃ d, c.receive = some d ∧ d.isCancelled = true ∧ d.reads = reads ∧
      d.outcome = some (Receiver.process bytes c.receiver).1 ∧
      d.receiver = (Receiver.process bytes c.receiver).2 := by
  have hstays : (Receiver.process bytes c.receiver).2.link.session.isClosed = true := by
    obtain ⟨framed, hrest⟩ := hleads.processOnto_eq 0
    rw [show Receiver.process bytes c.receiver = _ from hrest]
    exact Receiver.isClosed_processOnto hclosed framed
  cases hrun : Receiver.process bytes c.receiver with
  | mk result s =>
    rw [hrun] at hstays
    dsimp only at hstays
    cases result with
    | error error =>
      refine ⟨cancel { c with reads, receiver := s, outcome := some (.error error) }, ?_, rfl, rfl,
        rfl, ?_⟩
      · simp only [receive, hrunning, hreads, hrun]
      · have hcancelled : Connection.isCancelled
            { c with reads, receiver := s, outcome := some (.error error) } = true := hstays
        rw [cancel_of_isCancelled hcancelled]
    | ok =>
      refine ⟨{ c with reads, receiver := s, outcome := some (.ok ()) }, ?_, hstays, rfl, rfl, rfl⟩
      simp only [receive, hrunning, hreads, hrun, hstays, if_true]

/-- A command that closes the session is in the last read that is received. The rest of that read is
taken as it would be with any other session that can send: the same messages are handed on, with the
same result. Whatever happens then and whatever the peer still sends, no read is received any more,
the outcome stays that of this read, and of the session nothing but the queue changes until all of
its streams are dropped. -/
theorem closing_ends_with_the_read {bytes : Bytes} {reads : List Bytes} {r : Receiver}
    (hrunning : c.outcome = none) (hreads : c.reads = bytes :: reads)
    (hleads : Leads (c.receiver.push bytes) r) (hphase : r.phase = .chunking)
    (hclosed : r.link.session.isClosed = true) :
    (c.queue.isOpen = true → ∀ session : Session, session.queue.isOpen = true →
      Receiver.handed (r.withSession session) = Receiver.handed r ∧
      ∀ framed, (Receiver.processOnto framed (r.withSession session)).1
        = (Receiver.processOnto framed r).1) ∧
    ∃ d, c.receive = some d ∧ d.reads = reads ∧
      d.outcome = some (Receiver.process bytes c.receiver).1 ∧
      d.receiver = (Receiver.process bytes c.receiver).2 ∧
      ∀ e, Becomes d e → Rests d e := by
  obtain ⟨d, hd, hcancelled, hrest, houtcome, hreceiver⟩ :=
    receive_closing hrunning hreads hleads hclosed
  refine ⟨fun hopen session hsession => ?_, d, hd, hrest, houtcome, hreceiver, fun e he => ?_⟩
  · have hstill := hleads.isOpen (r := c.receiver.push bytes) hopen
    exact ⟨Receiver.handed_withSession hphase hstill hsession,
      Receiver.result_withSession hphase hstill hsession⟩
  · exact rests_becomes he (by rw [houtcome]; rfl) hcancelled

/-- The commands `close` and `seek`, a chunk each. -/
def closeAndSeek : Bytes :=
  [3, 0, 0, 0, 0, 0, 8, 20, 0, 0, 0, 0, 2, 0, 5, 99, 108, 111, 115, 101] ++
    [3, 0, 0, 0, 0, 0, 7, 20, 0, 0, 0, 0, 2, 0, 4, 115, 101, 101, 107]

/-- A client of live has sent both of them at once. -/
def attended : Connection where
  outbox := { capacity := 0 }
  reads := [closeAndSeek]
  receiver := Receiver.opened { connection := some Session.liveClient } ⟨1536, 128, false⟩ []

/-- The receiver is at the body of `close`. -/
def atClose : Receiver :=
  (Receiver.step (Receiver.step (attended.receiver.push closeAndSeek)).2).2

/-- It has taken `close` and not `seek`. -/
def betweenBoth : Receiver := (Receiver.step atClose).2

theorem step_attended :
    (Receiver.step (attended.receiver.push closeAndSeek)).1 = .ok (some 1) := by cbv

theorem step_beforeClose :
    (Receiver.step (Receiver.step (attended.receiver.push closeAndSeek)).2).1 = .ok (some 11) := by
  cbv

theorem step_atClose : (Receiver.step atClose).1 = .ok (some 8) := by cbv

theorem isClosed_betweenBoth : betweenBoth.link.session.isClosed = true := by cbv

theorem leads_betweenBoth : Leads (attended.receiver.push closeAndSeek) betweenBoth :=
  .on (Prod.ext step_attended rfl) (.on (Prod.ext step_beforeClose rfl)
    (.on (Prod.ext step_atClose rfl) (.here _)))

theorem closing_ends_with_the_read_closeAndSeek :
    attended.outcome = none ∧ attended.reads = closeAndSeek :: [] ∧
      Leads (attended.receiver.push closeAndSeek) betweenBoth ∧
      betweenBoth.phase = .chunking ∧ betweenBoth.link.session.isClosed = true ∧
      Receiver.handed (betweenBoth.withSession {}) = Receiver.handed betweenBoth ∧
      ∃ d, attended.receive = some d ∧ d.reads = [] ∧ ∀ e, Becomes d e → Rests d e := by
  have hphase : betweenBoth.phase = .chunking := rfl
  obtain ⟨hsame, d, hd, hrest, -, -, hbecomes⟩ :=
    closing_ends_with_the_read rfl rfl leads_betweenBoth hphase isClosed_betweenBoth
  exact ⟨rfl, rfl, leads_betweenBoth, hphase, isClosed_betweenBoth, (hsame rfl {} rfl).1,
    d, hd, hrest, hbecomes⟩

theorem calls_betweenBoth : betweenBoth.link.session.calls = [] := by cbv

theorem calls_closeAndSeek :
    (Receiver.process closeAndSeek attended.receiver).2.link.session.calls
      = [.invoked "accept all" 0 ⟨.amf0, "seek", .zero, .null, []⟩] := by cbv

/-- The app is called after the session has been closed: `seek` came in the same read. -/
theorem called_after_closing :
    ∃ r, Leads (attended.receiver.push closeAndSeek) r ∧ r.link.session.isClosed = true ∧
      r.link.session.calls = [] ∧
      (Receiver.process closeAndSeek attended.receiver).2.link.session.calls
        = [.invoked "accept all" 0 ⟨.amf0, "seek", .zero, .null, []⟩] :=
  ⟨betweenBoth, leads_betweenBoth, isClosed_betweenBoth, calls_betweenBoth, calls_closeAndSeek⟩

end Connection

end RtmpEndpoint
