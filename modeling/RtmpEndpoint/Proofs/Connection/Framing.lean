import RtmpEndpoint.Proofs.Chunk.Slicing
import RtmpEndpoint.Proofs.Connection.Sizing

/-!
# The assembler of a receiver

The assembler of a receiver takes steps, and the messages of the protocol itself set its chunk size
and drop what it has begun. Up to the end of the handshake it is new. So in every state of a
receiver its assembler is one that assemblers come to, whatever has come in.
-/

namespace RtmpEndpoint

/-! ## What a message does to the assembler -/

namespace Link

variable {link : Link} {stage : ReadStage}

theorem assembler_onSession {α : Type} (x : Session.Action α) (link : Link) :
    (onSession x link).2.assembler = link.assembler := by
  unfold onSession Transition.focus
  split <;> rfl

theorem assembler_answer (x : Session.Action Nat) (link : Link) :
    ((do let _ ← onSession x : Action Unit) link).2.assembler = link.assembler := by
  rw [answer_eq]
  exact assembler_onSession _ link

theorem assembler_answerPing (decoded : Except Message.DecodeError Message) (link : Link) :
    (answerPing decoded link).2.assembler = link.assembler := by
  unfold answerPing
  split
  · exact assembler_answer _ link
  · rfl

/-- Of the messages of the protocol itself one sets a chunk size and one drops a message. -/
theorem reached_control (h : link.assembler.Reached stage) (message : Message) :
    (control message link).2.assembler.Reached stage := by
  cases message with
  | setChunkSize size =>
    cases hs : link.assembler.setMaxSize size.toNat with
    | ok assembler =>
      rw [control, setReadChunkSize_accepted hs]
      exact h.resized hs
    | error error =>
      rw [control, setReadChunkSize_refused hs]
      exact h
  | abort csid => exact h.aborted csid
  | setPeerBandwidth size limit =>
    cases ha : link.window.accepts size limit with
    | false =>
      rw [control, setPeerBandwidth_ignored ha]
      exact h
    | true =>
      rw [control, setPeerBandwidth_accepted ha, assembler_answer]
      exact h
  | acknowledgement | windowAcknowledgementSize | userControl | audio | video | command | data
  | unknown => exact h

theorem reached_deliver (h : link.assembler.Reached stage) (payload : Payload) :
    (deliver payload link).2.assembler.Reached stage := by
  rw [deliver_eq]
  split
  · cases Message.decode payload.tag payload.data with
    | error error => exact h
    | ok message => exact reached_control h message
  · split
    · rw [assembler_answerPing]
      exact h
    · exact h

theorem reached_deliverAll (h : link.assembler.Reached stage) (payloads : List Payload) :
    (deliverAll payloads link).2.assembler.Reached stage := by
  induction payloads generalizing link with
  | nil => exact h
  | cons payload rest ih =>
    have hfirst := reached_deliver h payload
    rcases then_cases (deliver payload) (deliverAll rest) link with ⟨error, -, hrun⟩ | ⟨-, hrun⟩
    · rw [deliverAll, hrun]
      exact hfirst
    · rw [deliverAll, hrun]
      exact ih hfirst

theorem reached_receive (h : link.assembler.Reached stage) (payload : Payload) :
    (receive payload link).2.assembler.Reached stage := by
  rw [receive_eq]
  exact reached_deliverAll h _

theorem assembler_recordReceived (bytes : Nat) (link : Link) :
    (recordReceived bytes link).2.assembler = link.assembler := by
  unfold recordReceived
  dsimp only
  split
  · rfl
  · split <;> rfl

end Link

namespace Receiver

variable {r s : Receiver}

/-! ## Taking chunks -/

/-- The receiver takes chunks, and its assembler and its stage are such as can be. -/
structure Framing (r : Receiver) : Prop where
  phase : r.phase = .chunking
  reached : r.link.assembler.Reached r.stage

theorem Framing.step (h : Framing r) : Framing (step r).2 := by
  refine ⟨(Reaches.step .refl).chunking h.phase, ?_⟩
  rw [step_chunking h.phase]
  cases hs : r.link.assembler.step r.stage r.buffer.bytes with
  | mk progress assembler =>
    cases progress with
    | error error => exact h.reached.failed hs
    | ok progress =>
      cases progress with
      | needMoreData =>
        cases Chunk.Assembler.step_needMoreData hs
        exact h.reached
      | advanced n next => exact h.reached.advanced hs
      | completed n payload =>
        have hnext : (Link.receive payload { r.link with assembler }).2.assembler.Reached
            .firstByteBasicHeader :=
          Link.reached_receive (h.reached.completed hs) payload
        dsimp only [afterPart]
        cases hreceive : Link.receive payload { r.link with assembler } with
        | mk result link =>
          rw [hreceive] at hnext
          cases result <;> exact hnext

theorem Framing.next {result : Except ConnectionError (Option Nat)} (h : Framing r)
    (hs : Receiver.step r = (result, s)) : Framing s := by
  have hnext := h.step
  rw [hs] at hnext
  exact hnext

/-! ## From the handshake on -/

/-- The assembler of a receiver is new up to the end of the handshake. -/
structure Prepared (r : Receiver) : Prop where
  new : r.phase.isChunking = false → r.link.assembler = {}
  framing : r.phase = .chunking → Framing r

theorem prepared_handshaking {judge : Handshake} (hp : r.phase = .handshaking judge)
    (hnew : r.link.assembler = {}) : Prepared r where
  new _ := hnew
  framing hchunking := by
    rw [hp] at hchunking
    cases hchunking

theorem prepared_takeC0C1 {judge : Handshake} (hp : r.phase = .handshaking judge)
    (hnew : r.link.assembler = {}) : Prepared (takeC0C1 judge r).2 := by
  have hsame := prepared_handshaking hp hnew
  rw [takeC0C1_eq]
  unfold Receiver.judge
  split
  · exact hsame
  · exact hsame
  · next judged _ =>
    have hsent := Link.assembler_onSession (sendReply judged.1) r.link
    dsimp only
    cases hrun : Link.onSession (sendReply judged.1) r.link with
    | mk answer link =>
      rw [hrun, hnew] at hsent
      cases answer <;> exact prepared_handshaking rfl hsent

/-- The chunks begin with a new assembler. -/
theorem prepared_takeC2 {judge : Handshake} (hp : r.phase = .handshaking judge)
    (hnew : r.link.assembler = {}) : Prepared (takeC2 judge r).2 := by
  have hsame := prepared_handshaking hp hnew
  rw [takeC2_eq]
  unfold Receiver.judge
  split
  · exact hsame
  · exact hsame
  · refine ⟨by rintro ⟨⟩, fun _ => ⟨rfl, ?_⟩⟩
    dsimp only
    rw [hnew]
    exact .fresh

theorem Prepared.step (h : Prepared r) : Prepared (step r).2 := by
  cases hp : r.phase with
  | chunking =>
    have hnext := (h.framing hp).step
    -- There is no way back into the handshake.
    refine ⟨fun hhandshake => ?_, fun _ => hnext⟩
    rw [hnext.phase] at hhandshake
    cases hhandshake
  | handshaking judge =>
    have hnew := h.new (by rw [hp]; rfl)
    unfold Receiver.step
    split
    · next hp _ => exact prepared_takeC0C1 hp hnew
    · next hp _ => exact prepared_takeC2 hp hnew
    · exact h
    · next hchunking => cases hchunking.symm.trans hp

theorem Prepared.reaches (h : Prepared r) (hs : Reaches r s) : Prepared s := by
  induction hs with
  | refl => exact h
  | push hs input ih => exact ⟨ih.new, fun hp => ⟨hp, (ih.framing hp).reached⟩⟩
  | step hs ih => exact ih.step
  | @counted s hs bytes ih =>
    have hsame := Link.assembler_recordReceived bytes s.link
    refine ⟨fun hp => hsame.trans (ih.new hp), fun hp => ⟨hp, ?_⟩⟩
    dsimp only
    rw [hsame]
    exact (ih.framing hp).reached

/-- Behind the handshake the assembler and the stage of a receiver are such as can be. -/
theorem framing_of_comesTo {session : Session} {nonce : Nonce} {capacity : Nat}
    (h : ComesTo (Connection.accept session nonce capacity).receiver r) (hp : r.phase = .chunking) :
    Framing r := by
  have hprepared : Prepared r := by
    clear hp
    induction h with
    | start => exact prepared_handshaking rfl rfl
    | on h hs ih => exact ih.reaches hs
    | meanwhile h session ih => exact ⟨ih.new, fun hp => ⟨hp, (ih.framing hp).reached⟩⟩
  exact hprepared.framing hp

end Receiver

end RtmpEndpoint
