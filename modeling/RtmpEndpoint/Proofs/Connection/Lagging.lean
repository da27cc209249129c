import RtmpEndpoint.Connection.Receiver
import RtmpEndpoint.Proofs.Connection.Delivery
import RtmpEndpoint.Proofs.Connection.Prefix

/-!
# A receiver that has not got all of its input

Two receivers that differ in what is hidden in their links, and of which one has only the front of
the input of the other, take the same steps until the one that lags behind has to wait.
-/

namespace RtmpEndpoint

open RtmpEndpoint.Flow (SendQueue)
open RtmpEndpoint.Flow.SendQueue (Entry)

/-! ## Links -/

namespace Link

/-- What an oblivious action does with other things hidden, seen from what it does here. -/
theorem Oblivious.run {α : Type} {x : Link → α × Link} (h : Oblivious x) (link : Link)
    (hopen : link.session.queue.isOpen = true) :
    ∃ log, (x link).2.session.queue = link.session.queue.replay log ∧
      ∀ counts q, q.face = link.session.queue.face →
        x (link.hide counts q) = ((x link).1, (x link).2.hide counts (q.replay log)) := by
  obtain ⟨answer, t, log, -, hrun⟩ := h link hopen
  have hself : x link = (answer, t.hide _ (link.session.queue.replay log)) :=
    hrun (link.window.unacknowledged, link.window.received) link.session.queue rfl
  rw [hself]
  exact ⟨log, rfl, hrun⟩

end Link

namespace Receiver

/-- The send queue that a receiver answers on. -/
def queue (r : Receiver) : SendQueue := r.link.session.queue

/-- The receiver with other things hidden in its link and another buffer. -/
def hide (counts : UInt64 × UInt64) (queue : SendQueue) (buffer : Buffer) (r : Receiver) :
    Receiver :=
  { r with link := r.link.hide counts queue, buffer }

/-- What the next step hands on as a message. -/
def completes? (r : Receiver) : Option Payload :=
  match r.phase with
  | .handshaking _ => none
  | .chunking =>
    match (r.link.assembler.step r.stage r.buffer.bytes).1 with
    | .ok (.completed _ payload) => some payload
    | _ => none

variable {s : Receiver}

/-- An action of a receiver with only the front of the input waits, with nothing handed on, or does
and hands on what it does with all of the input. -/
def Keeps (x : Action (Option Nat)) (s : Receiver) : Prop :=
  ∃ log, (x s).2.queue = s.queue.replay log ∧
    ∀ counts q buffer more, q.face = s.queue.face → buffer.bytes ++ more = s.buffer.bytes →
      (x (s.hide counts q buffer) = (.ok none, s.hide counts q buffer) ∧
        (s.hide counts q buffer).completes? = none) ∨
      ∃ left : Buffer, left.bytes ++ more = (x s).2.buffer.bytes ∧
        x (s.hide counts q buffer) = ((x s).1, (x s).2.hide counts (q.replay log) left) ∧
        (s.hide counts q buffer).completes? = s.completes?

theorem drop_append {b c : Buffer} {more : Bytes} {n : Nat} (h : b.bytes ++ more = c.bytes)
    (hn : n ≤ b.size) : (b.drop n).bytes ++ more = (c.drop n).bytes := by
  rw [Buffer.bytes_drop, Buffer.bytes_drop, ← h,
    List.drop_append_of_le_length (by rw [Buffer.length_bytes]; exact hn)]

theorem completes?_handshaking {handshake : Handshake} (h : s.phase = .handshaking handshake) :
    s.completes? = none := by
  rw [completes?, h]

/-! ## The handshake -/

theorem oblivious_sendReply (reply : Handshake.Reply) : Session.Oblivious (sendReply reply) :=
  Flow.Layer.oblivious_bind (Session.oblivious_onQueue (SendQueue.logged_sendRaw _))
    fun _ => Session.oblivious_onQueue (SendQueue.logged_sendRaw _)

/-- Judging a packet of the handshake: it is wrong, it is not there as a whole, or something follows
from it. -/
def judge {β : Type} (packet : Bytes → Except Handshake.Error (Option β))
    (follow : β → Action (Option Nat)) : Action (Option Nat) := fun r =>
  match packet r.buffer.bytes with
  | .error error => (.error (.handshake error), r)
  | .ok none => (.ok none, r)
  | .ok (some judged) => follow judged r

/-- It is enough to look at what follows from a packet that is there as a whole. -/
theorem keeps_judge {β : Type} {packet : Bytes → Except Handshake.Error (Option β)}
    {follow : β → Action (Option Nat)} {handshake : Handshake}
    (hp : s.phase = .handshaking handshake)
    (hfront : ∀ bytes more, packet bytes = .ok none ∨ packet bytes = packet (bytes ++ more))
    (hfollow : ∀ judged, packet s.buffer.bytes = .ok (some judged) →
      ∃ log, (follow judged s).2.queue = s.queue.replay log ∧
        ∀ counts q buffer more, q.face = s.queue.face → buffer.bytes ++ more = s.buffer.bytes →
          packet buffer.bytes = .ok (some judged) →
          ∃ left : Buffer, left.bytes ++ more = (follow judged s).2.buffer.bytes ∧
            follow judged (s.hide counts q buffer)
              = ((follow judged s).1, (follow judged s).2.hide counts (q.replay log) left)) :
    Keeps (judge packet follow) s := by
  have hnone (counts q buffer) : (s.hide counts q buffer).completes? = none :=
    completes?_handshaking hp
  have hsame : s.completes? = none := completes?_handshaking hp
  have hpart (buffer : Buffer) (more : Bytes) (hbytes : buffer.bytes ++ more = s.buffer.bytes) :
      packet buffer.bytes = .ok none ∨ packet buffer.bytes = packet s.buffer.bytes := by
    rw [← hbytes]
    exact hfront buffer.bytes more
  have hwait (counts q) (buffer : Buffer) (hw : packet buffer.bytes = .ok none) :
      judge packet follow (s.hide counts q buffer) = (.ok none, s.hide counts q buffer) := by
    simp only [judge, hide, hw]
  cases hc : packet s.buffer.bytes with
  | error error =>
    have hhere : judge packet follow s = (.error (.handshake error), s) := by
      simp only [judge, hc]
    refine ⟨[], by rw [hhere]; rfl, ?_⟩
    intro counts q buffer more _ hbytes
    rcases hpart buffer more hbytes with hw | hb
    · exact .inl ⟨hwait counts q buffer hw, hnone counts q buffer⟩
    · refine .inr ⟨buffer, by rw [hhere, hbytes], ?_, by rw [hnone, hsame]⟩
      rw [hhere]
      simp only [judge, hide, hb, hc, SendQueue.replay_nil]
  | ok judged =>
    cases judged with
    | none =>
      refine ⟨[], by simp only [judge, hc]; rfl, ?_⟩
      intro counts q buffer more _ hbytes
      have hw : packet buffer.bytes = .ok none := by
        rcases hpart buffer more hbytes with hw | hb
        · exact hw
        · exact hb.trans hc
      exact .inl ⟨hwait counts q buffer hw, hnone counts q buffer⟩
    | some judged =>
      have hhere : judge packet follow s = follow judged s := by simp only [judge, hc]
      obtain ⟨log, hqueue, hrun⟩ := hfollow judged hc
      refine ⟨log, by rw [hhere]; exact hqueue, ?_⟩
      intro counts q buffer more hlook hbytes
      rcases hpart buffer more hbytes with hw | hb
      · exact .inl ⟨hwait counts q buffer hw, hnone counts q buffer⟩
      · obtain ⟨left, hleft, hthere⟩ := hrun counts q buffer more hlook hbytes (hb.trans hc)
        refine .inr ⟨left, by rw [hhere]; exact hleft, ?_, by rw [hnone, hsame]⟩
        rw [hhere, ← hthere]
        simp only [judge, hide, hb, hc]

/-- C0 and C1 are right, and the reply has been queued or not. -/
def afterReply (next : Handshake) (r : Receiver) (sent : Except ConnectionError Unit × Link) :
    Except ConnectionError (Option Nat) × Receiver :=
  match sent with
  | (.error error, link) => (.error error, { r with phase := .handshaking next, link })
  | (.ok (), link) =>
    (.ok (some 0),
      { phase := .handshaking next
        stage := .handshakeC2
        buffer := r.buffer.drop Handshake.c0c1Size
        link })

theorem takeC0C1_eq (handshake : Handshake) :
    takeC0C1 handshake = judge handshake.receiveC0C1 fun judged r =>
      afterReply judged.2 r (Link.onSession (sendReply judged.1) r.link) := by
  funext r
  unfold takeC0C1 judge
  cases handshake.receiveC0C1 r.buffer.bytes with
  | error error => rfl
  | ok judged =>
    cases judged with
    | none => rfl
    | some judged =>
      dsimp only
      cases Link.onSession (sendReply judged.1) r.link with
      | mk sent link => cases sent <;> rfl

theorem keeps_takeC0C1 {handshake : Handshake} (hp : s.phase = .handshaking handshake)
    (hopen : s.queue.isOpen = true) : Keeps (takeC0C1 handshake) s := by
  rw [takeC0C1_eq]
  apply keeps_judge hp handshake.receiveC0C1_front
  intro judged _
  obtain ⟨log, hqueue, hrun⟩ :=
    (Link.oblivious_onSession (oblivious_sendReply judged.1)).run s.link hopen
  cases hs : Link.onSession (sendReply judged.1) s.link with
  | mk sent link =>
    rw [hs] at hqueue hrun
    cases sent with
    | error error =>
      refine ⟨log, hqueue, ?_⟩
      intro counts q buffer more hlook hbytes _
      exact ⟨buffer, hbytes, by simp only [hide, hrun counts q hlook, afterReply]⟩
    | ok =>
      refine ⟨log, hqueue, ?_⟩
      intro counts q buffer more hlook hbytes hj
      have hlen := Handshake.length_of_receiveC0C1 hj
      rw [Buffer.length_bytes] at hlen
      exact ⟨buffer.drop Handshake.c0c1Size, drop_append hbytes hlen,
        by simp only [hide, hrun counts q hlook, afterReply]⟩

theorem takeC2_eq (handshake : Handshake) :
    takeC2 handshake = judge handshake.receiveC2 fun _ r => (.ok (some 0),
      { phase := .chunking
        stage := .firstByteBasicHeader
        buffer := r.buffer.drop Handshake.packetSize
        link := { r.link with readSize := r.link.readSize.completeHandshake } }) := by
  funext r
  unfold takeC2 judge
  cases handshake.receiveC2 r.buffer.bytes with
  | error error => rfl
  | ok judged => cases judged <;> rfl

theorem keeps_takeC2 {handshake : Handshake} (hp : s.phase = .handshaking handshake) :
    Keeps (takeC2 handshake) s := by
  rw [takeC2_eq]
  apply keeps_judge hp handshake.receiveC2_front
  intro judged _
  refine ⟨[], rfl, ?_⟩
  intro counts q buffer more _ hbytes hj
  have hlen := Handshake.length_of_receiveC2 hj
  rw [Buffer.length_bytes] at hlen
  exact ⟨buffer.drop Handshake.packetSize, drop_append hbytes hlen, rfl⟩

/-! ## Chunks -/

/-- What follows from the part of a chunk that has been taken. -/
def afterPart (r : Receiver) :
    Except Chunk.AssembleError Chunk.Progress × Chunk.Assembler →
      Except ConnectionError (Option Nat) × Receiver
  | (.error error, assembler) =>
    (.error (.framing error), { r with link := { r.link with assembler } })
  | (.ok .needMoreData, assembler) => (.ok none, { r with link := { r.link with assembler } })
  | (.ok (.advanced consumed next), assembler) =>
    (.ok (some consumed),
      { r with
        stage := next, buffer := r.buffer.drop consumed, link := { r.link with assembler } })
  | (.ok (.completed consumed payload), assembler) =>
    match Link.receive payload { r.link with assembler } with
    | (.error error, link) =>
      (.error error,
        { r with stage := .firstByteBasicHeader, buffer := r.buffer.drop consumed, link })
    | (.ok (), link) =>
      (.ok (some consumed),
        { r with stage := .firstByteBasicHeader, buffer := r.buffer.drop consumed, link })

/-- That a part cannot be whole is found without a step, but a step would find it too. -/
theorem takeChunkPart_eq (r : Receiver) :
    takeChunkPart r = afterPart r (r.link.assembler.step r.stage r.buffer.bytes) := by
  unfold takeChunkPart
  split
  · next h =>
    rw [← Buffer.length_bytes] at h
    rw [Chunk.Assembler.step_of_length_lt h]
    rfl
  · cases r.link.assembler.step r.stage r.buffer.bytes with
    | mk progress assembler =>
      cases progress with
      | error error => rfl
      | ok progress =>
        cases progress with
        | needMoreData => rfl
        | advanced consumed next => rfl
        | completed consumed payload =>
          cases hr : Link.receive payload { r.link with assembler } with
          | mk taken link => cases taken <;> simp only [afterPart, hr]

/-- What a part is, and what it leaves, with all of the input and the front of it. -/
theorem keeps_afterPart {result : Except Chunk.AssembleError Chunk.Progress × Chunk.Assembler}
    (hs : s.link.assembler.step s.stage s.buffer.bytes = result) (hopen : s.queue.isOpen = true) :
    ∃ log, (afterPart s result).2.queue = s.queue.replay log ∧
      ∀ counts q buffer more, q.face = s.queue.face → buffer.bytes ++ more = s.buffer.bytes →
        s.link.assembler.step s.stage buffer.bytes = result →
        ∃ left : Buffer, left.bytes ++ more = (afterPart s result).2.buffer.bytes ∧
          afterPart (s.hide counts q buffer) result
            = ((afterPart s result).1, (afterPart s result).2.hide counts (q.replay log) left) := by
  obtain ⟨progress, assembler⟩ := result
  cases progress with
  | error error =>
    exact ⟨[], rfl, fun _ _ buffer _ _ hbytes _ => ⟨buffer, hbytes, rfl⟩⟩
  | ok progress =>
    cases progress with
    | needMoreData => exact ⟨[], rfl, fun _ _ buffer _ _ hbytes _ => ⟨buffer, hbytes, rfl⟩⟩
    | advanced consumed next =>
      refine ⟨[], rfl, ?_⟩
      intro counts q buffer more _ hbytes hb
      have hle := (Chunk.Assembler.step_advanced hb).1
      rw [Buffer.length_bytes] at hle
      exact ⟨buffer.drop consumed, drop_append hbytes hle, rfl⟩
    | completed consumed payload =>
      have hreceive := Link.oblivious_receive payload
      obtain ⟨log, hqueue, hrun⟩ := hreceive.run { s.link with assembler } hopen
      refine ⟨log, ?_, ?_⟩
      · dsimp only [afterPart]
        cases hr : Link.receive payload { s.link with assembler } with
        | mk taken link =>
          rw [hr] at hqueue
          cases taken <;> exact hqueue
      · intro counts q buffer more hlook hbytes hb
        have hle := (Chunk.Assembler.step_completed hb).1
        rw [Buffer.length_bytes] at hle
        have hthere : Link.receive payload { s.link.hide counts q with assembler } = _ :=
          hrun counts q hlook
        refine ⟨buffer.drop consumed, ?_, ?_⟩
        · dsimp only [afterPart]
          cases Link.receive payload { s.link with assembler } with
          | mk taken link => cases taken <;> exact drop_append hbytes hle
        · dsimp only [afterPart, hide]
          rw [hthere]
          cases Link.receive payload { s.link with assembler } with
          | mk taken link => cases taken <;> rfl

theorem completes?_chunking {r : Receiver} (h : r.phase = .chunking) :
    r.completes? = match (r.link.assembler.step r.stage r.buffer.bytes).1 with
      | .ok (.completed _ payload) => some payload
      | _ => none := by
  rw [completes?, h]

theorem keeps_takeChunkPart (hp : s.phase = .chunking) (hopen : s.queue.isOpen = true) :
    Keeps takeChunkPart s := by
  obtain ⟨log, hqueue, hrun⟩ := keeps_afterPart rfl hopen
  refine ⟨log, by rw [takeChunkPart_eq]; exact hqueue, ?_⟩
  intro counts q buffer more hlook hbytes
  have hhidden : (s.hide counts q buffer).phase = .chunking := hp
  have hthere : takeChunkPart (s.hide counts q buffer) = afterPart (s.hide counts q buffer)
      (s.link.assembler.step s.stage buffer.bytes) := takeChunkPart_eq _
  have hcompletes := completes?_chunking hhidden
  have hfront := s.link.assembler.step_front s.stage buffer.bytes more
  rw [hbytes] at hfront
  rcases hfront with hw | hb
  · have hstep : (s.hide counts q buffer).link.assembler.step (s.hide counts q buffer).stage
        (s.hide counts q buffer).buffer.bytes = (.ok .needMoreData, s.link.assembler) := hw
    refine .inl ⟨?_, ?_⟩
    · rw [hthere, hw]
      rfl
    · rw [hcompletes, hstep]
  · have hstep : (s.hide counts q buffer).link.assembler.step (s.hide counts q buffer).stage
        (s.hide counts q buffer).buffer.bytes
        = s.link.assembler.step s.stage s.buffer.bytes := hb
    obtain ⟨left, hleft, hafter⟩ := hrun counts q buffer more hlook hbytes hb
    refine .inr ⟨left, by rw [takeChunkPart_eq]; exact hleft, ?_, ?_⟩
    · rw [hthere, hb, hafter, takeChunkPart_eq]
    · rw [hcompletes, hstep, completes?_chunking hp]

/-! ## Steps -/

/-- Only the phase and the stage say what a step is. -/
theorem Keeps.congr {x y : Action (Option Nat)} (hy : Keeps y s)
    (h : ∀ r : Receiver, r.phase = s.phase → r.stage = s.stage → x r = y r) : Keeps x s := by
  obtain ⟨log, hqueue, hrun⟩ := hy
  have hhere : x s = y s := h s rfl rfl
  refine ⟨log, by rw [hhere]; exact hqueue, ?_⟩
  intro counts q buffer more hlook hbytes
  have hthere : x (s.hide counts q buffer) = y (s.hide counts q buffer) := h _ rfl rfl
  rw [hhere, hthere]
  exact hrun counts q buffer more hlook hbytes

theorem keeps_wait {handshake : Handshake} (hp : s.phase = .handshaking handshake) :
    Keeps (fun r => (.ok none, r)) s :=
  ⟨[], rfl, fun _ _ _ _ _ _ => .inl ⟨rfl, completes?_handshaking hp⟩⟩

/-- Whatever a step does, a receiver that lags behind waits or does the same. -/
theorem keeps_step (hopen : s.queue.isOpen = true) : Keeps step s := by
  cases hp : s.phase with
  | chunking =>
    apply (keeps_takeChunkPart hp hopen).congr
    intro r hphase _
    rw [step, hphase.trans hp]
  | handshaking handshake =>
    cases hs : s.stage with
    | handshakeC0C1 =>
      apply (keeps_takeC0C1 hp hopen).congr
      intro r hphase hstage
      rw [step, hphase, hstage, hp, hs]
    | handshakeC2 =>
      apply (keeps_takeC2 hp).congr
      intro r hphase hstage
      rw [step, hphase, hstage, hp, hs]
    | firstByteBasicHeader | chunkMessageHeader | extendedTimestamp | completeMessage =>
      apply (keeps_wait hp).congr
      intro r hphase hstage
      rw [step, hphase, hstage, hp, hs]

/-! ## Waiting -/

theorem step_chunking {r : Receiver} (h : r.phase = .chunking) :
    step r = afterPart r (r.link.assembler.step r.stage r.buffer.bytes) := by
  rw [step, h, takeChunkPart_eq]

theorem afterPart_none {r t : Receiver}
    {result : Except Chunk.AssembleError Chunk.Progress × Chunk.Assembler}
    (h : afterPart r result = (.ok none, t)) : result.1 = .ok .needMoreData ∧
      t = { r with link := { r.link with assembler := result.2 } } := by
  unfold afterPart at h
  split at h
  · cases (Prod.mk.inj h).1
  · exact ⟨rfl, (Prod.mk.inj h).2.symm⟩
  · cases (Prod.mk.inj h).1
  · split at h <;> cases (Prod.mk.inj h).1

/-- A step that waits changes nothing. -/
theorem step_none {r t : Receiver} (h : step r = (.ok none, t)) : t = r := by
  cases hp : r.phase with
  | chunking =>
    rw [step_chunking hp] at h
    cases hs : r.link.assembler.step r.stage r.buffer.bytes with
    | mk progress assembler =>
      rw [hs] at h
      obtain ⟨rfl, rfl⟩ := afterPart_none h
      rw [Chunk.Assembler.step_needMoreData hs]
  | handshaking handshake =>
    unfold step at h
    rw [hp] at h
    split at h
    · simp only [takeC0C1] at h
      split at h
      · cases (Prod.mk.inj h).1
      · exact (Prod.mk.inj h).2.symm
      · split at h <;> cases (Prod.mk.inj h).1
    · simp only [takeC2] at h
      split at h
      · cases (Prod.mk.inj h).1
      · exact (Prod.mk.inj h).2.symm
      · cases (Prod.mk.inj h).1
    · exact (Prod.mk.inj h).2.symm
    · next he => cases he

/-- A step that waits hands nothing on. -/
theorem completes?_of_none {r t : Receiver} (h : step r = (.ok none, t)) : r.completes? = none := by
  cases hp : r.phase with
  | handshaking handshake => exact completes?_handshaking hp
  | chunking =>
    rw [step_chunking hp] at h
    rw [completes?_chunking hp, (afterPart_none h).1]

end Receiver

end RtmpEndpoint
