import Mathlib.Control.Monad.Basic
import RtmpEndpoint.Proofs.Connection.Opening
import RtmpEndpoint.Proofs.Flow.Acknowledging

/-!
# Which bytes are counted

A receiver counts what it has taken of the chunks, once for each piece of input. Nothing of the
handshake is counted, although C2 and the first chunks may come in one piece.
-/

namespace RtmpEndpoint

/-! ## Messages -/

namespace Link

/-- An action that leaves the count of received bytes alone. -/
def KeepsCount {α : Type} (x : Link → α × Link) : Prop :=
  ∀ link, (x link).2.window.received = link.window.received

theorem keepsCount_pure {α : Type} (a : α) : KeepsCount (pure a : Action α) := fun _ => rfl

theorem keepsCount_bind {α β : Type} {x : Action α} {f : α → Action β} (hx : KeepsCount x)
    (hf : ∀ a, KeepsCount (f a)) : KeepsCount (x >>= f) := by
  intro link
  have hfirst := hx link
  rw [Transition.bind_apply]
  cases hrun : x link with
  | mk answer t =>
    rw [hrun] at hfirst
    cases answer with
    | ok a => exact (hf a t).trans hfirst
    | error error => exact hfirst

/-- The session counts nothing. -/
theorem keepsCount_onSession {α : Type} (x : Session.Action α) : KeepsCount (onSession x) := by
  intro link
  simp only [onSession, Transition.focus]
  split <;> rfl

theorem keepsCount_answer (x : Session.Action Nat) :
    KeepsCount (do let _ ← onSession x : Action Unit) :=
  keepsCount_bind (keepsCount_onSession x) fun _ => keepsCount_pure ()

theorem keepsCount_setReadChunkSize (size : UInt32) : KeepsCount (setReadChunkSize size) := by
  intro link
  simp only [setReadChunkSize]
  split <;> rfl

theorem keepsCount_setPeerBandwidth (size : UInt32) (limit : BandwidthLimit) :
    KeepsCount (setPeerBandwidth size limit) := by
  intro link
  cases ha : link.window.accepts size limit with
  | false => rw [setPeerBandwidth_ignored ha]
  | true =>
    rw [setPeerBandwidth_accepted ha]
    exact keepsCount_answer _ _

theorem keepsCount_control (message : Message) : KeepsCount (control message) := by
  cases message with
  | setChunkSize size => exact keepsCount_setReadChunkSize size
  | setPeerBandwidth size limit => exact keepsCount_setPeerBandwidth size limit
  | acknowledgement | abort | windowAcknowledgementSize => exact fun _ => rfl
  | userControl | audio | video | command | data | unknown => exact keepsCount_pure ()

theorem keepsCount_obeyControl (decoded : Except Message.DecodeError Message) :
    KeepsCount (obeyControl decoded) := by
  cases decoded with
  | ok message => exact keepsCount_control message
  | error error => exact fun _ => rfl

theorem keepsCount_answerPing (decoded : Except Message.DecodeError Message) :
    KeepsCount (answerPing decoded) := by
  unfold answerPing
  split
  · exact keepsCount_answer _
  · exact keepsCount_pure ()

theorem keepsCount_deliver (payload : Payload) : KeepsCount (deliver payload) := by
  rw [deliver_eq]
  split
  · exact keepsCount_obeyControl _
  · split
    · exact keepsCount_answerPing _
    · exact fun _ => rfl

theorem keepsCount_deliverAll (payloads : List Payload) : KeepsCount (deliverAll payloads) := by
  induction payloads with
  | nil => exact keepsCount_pure ()
  | cons payload rest ih => exact keepsCount_bind (keepsCount_deliver payload) fun _ => ih

/-- No message can make its receiver count bytes. -/
theorem keepsCount_receive (payload : Payload) : KeepsCount (receive payload) := by
  unfold receive
  split
  · split
    · exact keepsCount_deliverAll _
    · exact keepsCount_pure ()
  · exact keepsCount_deliver payload

theorem received_recordReceived (bytes : Nat) (link : Link) :
    (recordReceived bytes link).2.window.received
      = link.window.received + UInt64.ofNat bytes := by
  have hcount : (link.window.record bytes).2.received
      = link.window.received + UInt64.ofNat bytes := Flow.Window.received_record link.window bytes
  rw [← hcount]
  unfold recordReceived
  split
  next due window hrecord =>
    rw [hrecord]
    cases due with
    | none => rfl
    | some sequenceNumber =>
      dsimp only
      split <;> rfl

end Link

/-! ## The place in the stream -/

namespace Handshake

variable {h : Handshake} {input : Bytes}

/-- C0 and C1 are only waited for while they are not whole. -/
theorem length_of_receiveC0C1_none (hwait : h.receiveC0C1 input = .ok none) :
    input.length < 1537 := by
  by_cases hstage : h.stage = .complete
  · simp [receiveC0C1, isComplete, hstage] at hwait
  · rw [receiveC0C1_eq hstage] at hwait
    split at hwait
    · assumption
    · split at hwait <;> simp at hwait

/-- C2 is only waited for while it is not whole. -/
theorem length_of_receiveC2_none {stream : Bytes}
    (hwait : h.receiveC2 (stream.drop 1537) = .ok none) : stream.length < 3073 := by
  by_cases hstage : h.stage = .complete
  · simp [receiveC2, isComplete, hstage] at hwait
  · rw [receiveC2_eq hstage] at hwait
    split at hwait
    · assumption
    · split at hwait <;> simp at hwait

end Handshake

namespace Receiver

/-- A receiver that has got the bytes of a stream, in pieces of any size of which none failed. In
the meantime others may have used its session. -/
inductive Fed (start : Receiver) : Bytes → Receiver → Prop where
  | start : Fed start [] start
  | process {stream : Bytes} {r s : Receiver} (h : Fed start stream r) {input : Bytes}
      (hs : process input r = (.ok (), s)) : Fed start (stream ++ input) s
  | meanwhile {stream : Bytes} {r : Receiver} (h : Fed start stream r) (session : Session) :
      Fed start stream { r with link := { r.link with session } }

/-- Where a receiver is when it has taken `taken` bytes of its stream: at C0 and C1, at C2, or
behind the chunks that it has counted and `framed` more bytes of them. -/
inductive Stands (taken framed : Nat) (received : UInt64) : Phase → ReadStage → Prop where
  | c0c1 (handshake : Handshake) (htaken : taken = 0) (hframed : framed = 0)
      (hreceived : received = 0) :
      Stands taken framed received (.handshaking handshake) .handshakeC0C1
  | c2 (handshake : Handshake) (htaken : taken = 1537) (hframed : framed = 0)
      (hreceived : received = 0) :
      Stands taken framed received (.handshaking handshake) .handshakeC2
  | chunk (stage : ReadStage) (counted : Nat) (htaken : taken = 3073 + counted + framed)
      (hreceived : received = UInt64.ofNat counted) :
      Stands taken framed received .chunking stage

/-- All of the stream is taken or in the buffer. Of what is taken `framed` bytes are yet to be
counted. -/
def Placed (stream : Bytes) (framed : Nat) (r : Receiver) : Prop :=
  ∃ taken, taken + r.buffer.size = stream.length ∧ r.buffer.bytes = stream.drop taken ∧
    Stands taken framed r.link.window.received r.phase r.stage

variable {stream : Bytes} {framed n : Nat} {r s t : Receiver}

theorem placed_fresh (nonce : Nonce) (readSize : Flow.ReadSize) (session : Session) :
    Placed [] 0 (fresh nonce { readSize, session }) :=
  ⟨0, rfl, rfl, .c0c1 _ rfl rfl rfl⟩

theorem Placed.push (h : Placed stream framed r) (input : Bytes) :
    Placed (stream ++ input) framed (r.push input) := by
  obtain ⟨taken, hsize, hbytes, hstands⟩ := h
  refine ⟨taken, ?_, ?_, hstands⟩
  · rw [List.length_append, ← hsize]
    simp only [Receiver.push, Buffer.push]
    omega
  · rw [List.drop_append_of_le_length (by omega), ← hbytes]
    exact Buffer.bytes_push r.buffer input

/-- Taking a part off the buffer. -/
theorem Placed.drop {taken consumed : Nat} (hsize : taken + r.buffer.size = stream.length)
    (hbytes : r.buffer.bytes = stream.drop taken) (hle : consumed ≤ r.buffer.size)
    (hbuffer : t.buffer = r.buffer.drop consumed)
    (hstands : Stands (taken + consumed) framed t.link.window.received t.phase t.stage) :
    Placed stream framed t := by
  refine ⟨taken + consumed, ?_, ?_, hstands⟩
  · rw [hbuffer, Buffer.size_drop]
    omega
  · rw [hbuffer, Buffer.bytes_drop, hbytes, List.drop_drop]

theorem placed_takeC0C1 {handshake : Handshake} (h : Placed stream framed r)
    (hp : r.phase = .handshaking handshake) (hs : r.stage = .handshakeC0C1)
    (hstep : takeC0C1 handshake r = (.ok (some n), t)) : Placed stream (framed + n) t := by
  obtain ⟨taken, hsize, hbytes, hstands⟩ := h
  rw [hp, hs] at hstands
  cases hstands with
  | c0c1 _ htaken hframed hreceived =>
    simp only [takeC0C1] at hstep
    split at hstep
    · cases (Prod.mk.inj hstep).1
    · cases (Prod.mk.inj hstep).1
    · next reply next hjudged =>
      have hlen := Handshake.length_of_receiveC0C1 hjudged
      rw [Buffer.length_bytes] at hlen
      have hkeeps := Link.keepsCount_onSession (sendReply reply) r.link
      split at hstep
      · cases (Prod.mk.inj hstep).1
      · next link hsend =>
        rw [hsend] at hkeeps
        cases hstep
        refine Placed.drop hsize hbytes hlen rfl (.c2 next ?_ hframed (hkeeps.trans hreceived))
        rw [htaken, Handshake.c0c1Size]

theorem placed_takeC2 {handshake : Handshake} (h : Placed stream framed r)
    (hp : r.phase = .handshaking handshake) (hs : r.stage = .handshakeC2)
    (hstep : takeC2 handshake r = (.ok (some n), t)) : Placed stream (framed + n) t := by
  obtain ⟨taken, hsize, hbytes, hstands⟩ := h
  rw [hp, hs] at hstands
  cases hstands with
  | c2 _ htaken hframed hreceived =>
    simp only [takeC2] at hstep
    split at hstep
    · cases (Prod.mk.inj hstep).1
    · cases (Prod.mk.inj hstep).1
    · next hjudged =>
      have hlen := Handshake.length_of_receiveC2 hjudged
      rw [Buffer.length_bytes] at hlen
      cases hstep
      refine Placed.drop hsize hbytes hlen rfl (.chunk _ 0 ?_ hreceived)
      rw [htaken, hframed, Handshake.packetSize]

/-- The bytes of a part are not counted yet when it has been taken, also if it ends a message. -/
theorem placed_takeChunkPart (h : Placed stream framed r) (hp : r.phase = .chunking)
    (hstep : step r = (.ok (some n), t)) : Placed stream (framed + n) t := by
  obtain ⟨taken, hsize, hbytes, hstands⟩ := h
  rw [step_chunking hp] at hstep
  rw [hp] at hstands
  cases hstands with
  | chunk _ counted htaken hreceived =>
    have hnext : taken + n = 3073 + counted + (framed + n) := by omega
    cases hs : r.link.assembler.step r.stage r.buffer.bytes with
    | mk progress assembler =>
      rw [hs] at hstep
      cases progress with
      | error error => cases (Prod.mk.inj hstep).1
      | ok progress =>
        cases progress with
        | needMoreData => cases (Prod.mk.inj hstep).1
        | advanced consumed next =>
          cases hstep
          have hle := (Chunk.Assembler.step_advanced hs).1
          rw [Buffer.length_bytes] at hle
          exact Placed.drop hsize hbytes hle rfl (hp ▸ .chunk _ counted hnext hreceived)
        | completed consumed payload =>
          have hle := (Chunk.Assembler.step_completed hs).1
          rw [Buffer.length_bytes] at hle
          have hkeeps := Link.keepsCount_receive payload { r.link with assembler }
          simp only [afterPart] at hstep
          split at hstep
          · cases (Prod.mk.inj hstep).1
          · next link hreceive =>
            rw [hreceive] at hkeeps
            cases hstep
            exact Placed.drop hsize hbytes hle rfl
              (hp ▸ .chunk _ counted hnext (hkeeps.trans hreceived))

/-- One step: what it takes of the chunks is yet to be counted. -/
theorem Placed.step (h : Placed stream framed r) (hstep : step r = (.ok (some n), t)) :
    Placed stream (framed + n) t := by
  cases hp : r.phase with
  | chunking => exact placed_takeChunkPart h hp hstep
  | handshaking handshake =>
    unfold Receiver.step at hstep
    rw [hp] at hstep
    split at hstep
    · next handshake' hphase hs =>
      cases hphase
      exact placed_takeC0C1 h hp hs hstep
    · next handshake' hphase hs =>
      cases hphase
      exact placed_takeC2 h hp hs hstep
    · cases (Prod.mk.inj hstep).1
    · next hphase => cases hphase

/-- A receiver in the handshake waits for bytes of the handshake. -/
theorem Placed.length_of_handshaking {handshake : Handshake} (h : Placed stream framed r)
    (hp : r.phase = .handshaking handshake) (hstep : Receiver.step r = (.ok none, t)) :
    stream.length < 3073 := by
  obtain ⟨taken, hsize, hbytes, hstands⟩ := h
  rw [hp] at hstands
  generalize hs : r.stage = stage at hstands
  cases hstands with
  | c0c1 _ htaken =>
    simp only [Receiver.step, hp, hs, takeC0C1] at hstep
    split at hstep
    · cases (Prod.mk.inj hstep).1
    · next hwait =>
      have hlen := Handshake.length_of_receiveC0C1_none hwait
      rw [Buffer.length_bytes] at hlen
      omega
    · split at hstep <;> cases (Prod.mk.inj hstep).1
  | c2 _ htaken =>
    simp only [Receiver.step, hp, hs, takeC2] at hstep
    split at hstep
    · cases (Prod.mk.inj hstep).1
    · next hwait =>
      rw [hbytes, htaken] at hwait
      exact Handshake.length_of_receiveC2_none hwait
    · cases (Prod.mk.inj hstep).1

/-! ## Runs -/

/-- Where a receiver is between two pieces of input. -/
structure Settled (stream : Bytes) (r : Receiver) : Prop where
  placed : Placed stream 0 r
  waits : ∀ handshake, r.phase = .handshaking handshake → stream.length < 3073

/-- When it waits the receiver counts what it has taken. -/
theorem Placed.counted {result : Except SessionError Unit} {link : Link}
    (h : Placed stream framed r) (hp : framed ≠ 0)
    (hcount : Link.recordReceived framed r.link = (result, link)) :
    r.phase = .chunking ∧ Placed stream 0 { r with link } := by
  obtain ⟨taken, hsize, hbytes, hstands⟩ := h
  have hreceived := Link.received_recordReceived framed r.link
  rw [hcount] at hreceived
  generalize r.phase = phase, r.stage = stage at hstands ⊢
  cases hstands with
  | c0c1 _ _ hframed => exact absurd hframed hp
  | c2 _ _ hframed => exact absurd hframed hp
  | chunk _ counted htaken hbefore =>
    refine ⟨rfl, taken, hsize, hbytes, ?_⟩
    dsimp only
    rw [hreceived, hbefore, ← UInt64.ofNat_add]
    exact .chunk _ (counted + framed) (by omega) rfl

theorem process_eq (input : Bytes) (r : Receiver) :
    process input r = processOnto 0 (r.push input) := rfl

theorem processOnto_counted (hframed : framed ≠ 0) (h : step r = (.ok none, t))
    (hcount : (Link.recordReceived framed r.link).1 = .ok ()) :
    ∃ s, processOnto framed r = (.ok (), s) ∧ s.buffer = r.buffer := by
  cases hrecord : Link.recordReceived framed r.link with
  | mk result link =>
    rw [hrecord] at hcount
    cases step_none h
    refine ⟨{ r with link }, ?_, rfl⟩
    rw [processOnto]
    split <;> simp_all

theorem Placed.settled (h : Placed stream framed r)
    (hrun : processOnto framed r = (.ok (), s)) : Settled stream s := by
  fun_induction processOnto framed r with
  | case1 framed r error t hs => cases (Prod.mk.inj hrun).1
  | case2 framed r n t hs ih => exact ih (h.step hs) hrun
  | case3 r t hs =>
    cases hrun
    cases step_none hs
    exact ⟨h, fun handshake hp => h.length_of_handshaking hp hs⟩
  | case4 framed r t hs hframed link hcount =>
    cases hrun
    cases step_none hs
    obtain ⟨hp, hplaced⟩ := h.counted hframed hcount
    exact ⟨hplaced, fun handshake hp' => by cases hp.symm.trans hp'⟩
  | case5 framed r t hs hframed error link hcount => cases (Prod.mk.inj hrun).1

theorem Fed.settled {start : Receiver} (hstart : Settled [] start) (h : Fed start stream r) :
    Settled stream r := by
  induction h with
  | start => exact hstart
  | process h hs ih => exact (ih.placed.push _).settled hs
  | meanwhile h session ih => exact ⟨ih.placed, ih.waits⟩

/-- Taking pieces one after the other, as long as none fails. -/
theorem fed_processAll {start : Receiver} {inputs : List Bytes} (h : Fed start stream r)
    (hrun : processAll inputs r = (.ok (), s)) : Fed start (stream ++ inputs.flatten) s := by
  induction inputs generalizing stream r with
  | nil =>
    cases hrun
    rw [List.flatten_nil, List.append_nil]
    exact h
  | cons input inputs ih =>
    rw [processAll, Transition.bind_apply] at hrun
    cases hp : process input r with
    | mk result t =>
      rw [hp] at hrun
      cases result with
      | error error => cases (Prod.mk.inj hrun).1
      | ok =>
        rw [List.flatten_cons, ← List.append_assoc]
        exact ih (h.process hp) hrun

/-- However its input came in pieces, a receiver none of whose pieces failed has counted nothing of
the first 3073 bytes, and every byte behind them that is not in its buffer once. -/
theorem received_counts_chunks {nonce : Nonce} {readSize : Flow.ReadSize} {session : Session}
    {stream : Bytes} {r : Receiver} (h : Fed (fresh nonce { readSize, session }) stream r) :
    (stream.length < 3073 →
      (∃ handshake, r.phase = .handshaking handshake) ∧ r.link.window.received = 0) ∧
    (3073 ≤ stream.length → r.phase = .chunking ∧
      let counted := stream.length - 3073 - r.buffer.size
      3073 + counted + r.buffer.size = stream.length ∧
        r.buffer.bytes = stream.drop (3073 + counted) ∧
        r.link.window.received = UInt64.ofNat counted) := by
  have hstart : Settled [] (fresh nonce { readSize, session }) :=
    ⟨placed_fresh nonce readSize session, fun _ _ => by decide⟩
  obtain ⟨⟨taken, hsize, hbytes, hstands⟩, hwaits⟩ := h.settled hstart
  generalize r.phase = phase, r.stage = stage at hstands hwaits ⊢
  cases hstands with
  | c0c1 handshake htaken _ hreceived =>
    have hshort := hwaits handshake rfl
    exact ⟨fun _ => ⟨⟨handshake, rfl⟩, hreceived⟩, fun hlong => by omega⟩
  | c2 handshake htaken _ hreceived =>
    have hshort := hwaits handshake rfl
    exact ⟨fun _ => ⟨⟨handshake, rfl⟩, hreceived⟩, fun hlong => by omega⟩
  | chunk _ counted htaken hreceived =>
    refine ⟨fun hshort => by omega, fun _ => ⟨rfl, ?_⟩⟩
    have hcounted : stream.length - 3073 - r.buffer.size = counted := by omega
    rw [hcounted]
    exact ⟨by omega, by rw [hbytes, htaken]; rfl, hreceived⟩

/-- The handshake in two pieces, the second one with the first bytes of a chunk. -/
def openingAndHeader : List Bytes :=
  [plainOpening ++ List.replicate 8 0, sevens.bytes ++ [2, 0, 0]]

/-- The receiver that they come in to, before them. -/
def newcomer : Receiver := fresh sevens { readSize := ⟨1536, 128, false⟩, session := {} }

/-- It has taken C0 and C1. -/
def greeted : Receiver := (step (newcomer.push (plainOpening ++ List.replicate 8 0))).2

/-- It has taken C2, and the rest of the second piece is in its buffer. -/
def echoed : Receiver := (step (greeted.push (sevens.bytes ++ [2, 0, 0]))).2

/-- It has taken a basic header. -/
def headed : Receiver := (step echoed).2

theorem step_eq {result : Except ConnectionError (Option Nat)} (h : (step r).1 = result)
    (ht : t = (step r).2) : step r = (result, t) := by
  rw [ht]
  exact Prod.ext h rfl

theorem step_waits (h : (step r).1 = .ok none) : step r = (.ok none, r) :=
  step_eq h (step_none (step_eq h rfl)).symm

theorem received_counts_chunks_openingAndHeader :
    3073 ≤ openingAndHeader.flatten.length ∧
      ∃ r, processAll openingAndHeader newcomer = (.ok (), r) ∧
        Fed newcomer openingAndHeader.flatten r ∧ r.phase = .chunking ∧ r.buffer.size = 2 ∧
        r.link.window.received = 1 := by
  have hsteps : (step (newcomer.push (plainOpening ++ List.replicate 8 0))).1 = .ok (some 0) ∧
      (step greeted).1 = .ok none ∧
      (step (greeted.push (sevens.bytes ++ [2, 0, 0]))).1 = .ok (some 0) ∧
      (step echoed).1 = .ok (some 1) ∧ (step headed).1 = .ok none ∧ headed.buffer.size = 2 ∧
      (Link.recordReceived 1 headed.link).1 = .ok () := by
    decide +kernel
  obtain ⟨hc0c1, hwait, hc2, hheader, hwait', hsize, hcount⟩ := hsteps
  have hgreeted : step (newcomer.push _) = (.ok (some 0), greeted) := step_eq hc0c1 rfl
  have hechoed : step (greeted.push _) = (.ok (some 0), echoed) := step_eq hc2 rfl
  have hheaded : step echoed = (.ok (some 1), headed) := step_eq hheader rfl
  obtain ⟨r, hlast, hbuffer⟩ := processOnto_counted Nat.one_ne_zero (step_waits hwait') hcount
  have hfirst : process (plainOpening ++ List.replicate 8 0) newcomer = (.ok (), greeted) := by
    rw [process_eq, processOnto_some 0 hgreeted]
    exact processOnto_none (step_waits hwait)
  have hsecond : process (sevens.bytes ++ [2, 0, 0]) greeted = (.ok (), r) := by
    rw [process_eq, processOnto_some 0 hechoed, processOnto_some _ hheaded]
    exact hlast
  have hrun : processAll openingAndHeader newcomer = (.ok (), r) := by
    rw [openingAndHeader, processAll, Transition.bind_ok hfirst, processAll,
      Transition.bind_ok hsecond]
    rfl
  have hfed : Fed newcomer ([] ++ openingAndHeader.flatten) r := fed_processAll .start hrun
  rw [List.nil_append] at hfed
  have hlen : openingAndHeader.flatten.length = 3076 := by decide +kernel
  have hleft : r.buffer.size = 2 := by rw [hbuffer, hsize]
  obtain ⟨hphase, -, -, hreceived⟩ := (received_counts_chunks hfed).2 (by rw [hlen]; decide)
  rw [hlen, hleft] at hreceived
  exact ⟨by rw [hlen]; decide, r, hrun, hfed, hphase, hleft, hreceived⟩

end Receiver

end RtmpEndpoint
