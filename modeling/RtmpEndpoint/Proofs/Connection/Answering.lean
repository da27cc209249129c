import RtmpEndpoint.Proofs.Connection.Lagging
import RtmpEndpoint.Proofs.Flow.Growing
import RtmpEndpoint.Proofs.Session.Keeping

/-!
# What taking input does to the queue

Everything that is sent while input is taken goes through the queue of the session, and so do the
acknowledgements of the peer. What holds of a queue however it is used holds after any input.
-/

namespace RtmpEndpoint

open Flow.SendQueue (Stable)

variable {p : Flow.SendQueue → Prop}

namespace Session

variable {s : Session}

theorem stable_onQueue {α : Type} {x : Transition Flow.SendQueue Flow.SendError α}
    (hx : ∀ q, p q → p (x q).2) (hs : p s.queue) : p (onQueue x s).2.queue := by
  have hnext := hx s.queue hs
  unfold onQueue Transition.focus
  split <;> simp_all

theorem stable_sendMessage (h : Stable p) (csid streamId : UInt32) (timestamp : Timestamp)
    (message : Message) (hs : p s.queue) :
    p (sendMessage csid streamId timestamp message s).2.queue := by
  rw [sendMessage, Transition.bind_apply, encode]
  cases Message.encode message with
  | error error => exact hs
  | ok encoded => exact stable_onQueue (h.send _ _) hs

theorem stable_setWriteChunkSize (h : Stable p) (size : UInt32) (hs : p s.queue) :
    p (setWriteChunkSize size s).2.queue := by
  rw [setWriteChunkSize, Transition.bind_apply, encode]
  cases Message.encode _ with
  | error error => exact hs
  | ok encoded => exact stable_onQueue (h.setChunkSize _ _) hs

theorem stable_perform (h : Stable p) (operation : Application.Operation) :
    Preserves (fun s => p s.queue) fun s => s.perform operation := by
  intro s hs
  cases operation with
  | connectionId | isClosed | information | messageStreamIds | liveChunkStreams | close
  | removeMessageStream | releaseChunkStream | unacknowledgedBytes | writeChunkSize | netStream =>
    exact hs
  | createNetStream => exact spares_createNetStream.queue s ▸ hs
  | deleteNetStream id => exact (spares_deleteNetStream id).queue s ▸ hs
  | createMessageStream => exact (spares_addMessageStream _).queue s ▸ hs
  | allocateChunkStream => exact spares_allocateChunkStream.queue s ▸ hs
  | send | sendMessage | sendControl =>
    exact unawaited_snd _ s ▸ stable_sendMessage h _ _ _ _ hs
  | setWriteChunkSize size => exact unawaited_snd _ s ▸ stable_setWriteChunkSize h size hs

theorem upholds_queue (h : Stable p) : Upholds fun s => p s.queue where
  perform := stable_perform h
  note _ _ := id
  connect _ _ := id

end Session

namespace Link

variable {link : Link}

theorem stable_onSession {α : Type} {x : Session.Action α}
    (hx : p link.session.queue → p (x link.session).2.queue) (hs : p link.session.queue) :
    p (onSession x link).2.session.queue := by
  have hnext := hx hs
  unfold onSession Transition.focus
  split <;> simp_all

theorem stable_answer (h : Stable p) (message : Message) (hs : p link.session.queue) :
    p ((do let _ ← onSession (Session.sendControl message) :
      Action Unit) link).2.session.queue := by
  rw [answer_eq]
  refine stable_onSession (fun hs => ?_) hs
  rw [Session.unawaited_snd]
  exact Session.stable_sendMessage h _ _ _ _ hs

theorem stable_control (h : Stable p) (message : Message) (hs : p link.session.queue) :
    p (control message link).2.session.queue := by
  cases message with
  | setChunkSize size =>
    simp only [control, setReadChunkSize]
    split <;> exact hs
  | setPeerBandwidth size limit =>
    simp only [control, setPeerBandwidth]
    split
    · exact hs
    · exact stable_answer h _ hs
  | acknowledgement bytes => exact h.acknowledge bytes _ hs
  | abort | windowAcknowledgementSize | userControl | audio | video | command | data | unknown =>
    exact hs

theorem stable_deliver (h : Stable p) (payload : Payload) (hs : p link.session.queue) :
    p (deliver payload link).2.session.queue := by
  unfold deliver
  split
  · split
    · exact hs
    · exact stable_control h _ hs
  · split
    · split
      · exact stable_answer h _ hs
      · exact hs
    · exact (Session.upholds_queue h).dispatch payload hs

theorem stable_deliverAll (h : Stable p) (payloads : List Payload) (hs : p link.session.queue) :
    p (deliverAll payloads link).2.session.queue := by
  induction payloads generalizing link with
  | nil => exact hs
  | cons payload rest ih =>
    have hfirst := stable_deliver h payload hs
    rw [deliverAll, Transition.bind_apply]
    cases hrun : deliver payload link with
    | mk answer next =>
      rw [hrun] at hfirst
      cases answer with
      | ok => exact ih hfirst
      | error error => exact hfirst

theorem stable_receive (h : Stable p) (payload : Payload) (hs : p link.session.queue) :
    p (receive payload link).2.session.queue := by
  unfold receive
  split
  · cases Message.unpack payload with
    | ok payloads => exact stable_deliverAll h payloads hs
    | error error => exact hs
  · exact stable_deliver h payload hs

theorem stable_recordReceived (h : Stable p) (bytes : Nat) (hs : p link.session.queue) :
    p (recordReceived bytes link).2.session.queue := by
  unfold recordReceived
  dsimp only
  split
  · exact hs
  · next sequenceNumber _ =>
    have hsent : p (Session.sendControl (.acknowledgement sequenceNumber) link.session).2.queue :=
      Session.stable_sendMessage h _ _ _ _ hs
    split
    · next hrun => rwa [hrun] at hsent
    · next hrun => rwa [hrun] at hsent

end Link

namespace Receiver

variable {r : Receiver}

theorem stable_sendReply (h : Stable p) (reply : Handshake.Reply) {s : Session}
    (hs : p s.queue) : p (sendReply reply s).2.queue := by
  have hfirst : p (Session.onQueue (Flow.SendQueue.sendRaw reply.s0s1) s).2.queue :=
    Session.stable_onQueue (h.sendRaw _) hs
  rw [sendReply, Transition.bind_apply]
  cases hrun : Session.onQueue (Flow.SendQueue.sendRaw reply.s0s1) s with
  | mk answer next =>
    rw [hrun] at hfirst
    cases answer with
    | ok => exact Session.stable_onQueue (h.sendRaw _) hfirst
    | error error => exact hfirst

theorem stable_takeC0C1 (h : Stable p) (handshake : Handshake) (hr : p r.queue) :
    p (takeC0C1 handshake r).2.queue := by
  rw [takeC0C1_eq]
  unfold judge
  split
  · exact hr
  · exact hr
  · next judged _ =>
    have hsent : p (Link.onSession (sendReply judged.1) r.link).2.session.queue :=
      Link.stable_onSession (stable_sendReply h judged.1) hr
    dsimp only
    cases hrun : Link.onSession (sendReply judged.1) r.link with
    | mk answer link =>
      rw [hrun] at hsent
      cases answer <;> exact hsent

theorem stable_takeC2 (handshake : Handshake) (hr : p r.queue) :
    p (takeC2 handshake r).2.queue := by
  rw [takeC2_eq]
  unfold judge
  split <;> exact hr

theorem stable_afterPart (h : Stable p) (hr : p r.queue)
    (result : Except Chunk.AssembleError Chunk.Progress × Chunk.Assembler) :
    p (afterPart r result).2.queue := by
  obtain ⟨progress, assembler⟩ := result
  cases progress with
  | error error => exact hr
  | ok progress =>
    cases progress with
    | needMoreData => exact hr
    | advanced consumed next => exact hr
    | completed consumed payload =>
      have hreceive : p (Link.receive payload { r.link with assembler }).2.session.queue :=
        Link.stable_receive h payload hr
      dsimp only [afterPart]
      cases hrun : Link.receive payload { r.link with assembler } with
      | mk answer link =>
        rw [hrun] at hreceive
        cases answer <;> exact hreceive

theorem stable_step (h : Stable p) (hr : p r.queue) : p (step r).2.queue := by
  unfold step
  split
  · exact stable_takeC0C1 h _ hr
  · exact stable_takeC2 _ hr
  · exact hr
  · rw [takeChunkPart_eq]
    exact stable_afterPart h hr _

theorem stable_processOnto (h : Stable p) (framed : Nat) (hr : p r.queue) :
    p (processOnto framed r).2.queue := by
  have hstep {r : Receiver} {answer : Except ConnectionError (Option Nat)} {s : Receiver}
      (hs : step r = (answer, s)) (hr : p r.queue) : p s.queue := by
    have hnext := stable_step h hr
    rwa [hs] at hnext
  fun_induction processOnto framed r with
  | case1 framed r error s hs => exact hstep hs hr
  | case2 framed r n s hs ih => exact ih (hstep hs hr)
  | case3 r s hs => exact hstep hs hr
  | case4 framed r s hs hframed link hcount | case5 framed r s hs hframed error link hcount =>
    have hcounted := Link.stable_recordReceived h framed (hstep hs hr)
    rwa [hcount] at hcounted

/-- What holds of the queue however it is used holds after any input. -/
theorem stable_process (h : Stable p) (input : Bytes) (hr : p r.queue) :
    p (process input r).2.queue :=
  stable_processOnto h 0 hr

end Receiver

end RtmpEndpoint
