import RtmpEndpoint.Connection.Link
import RtmpEndpoint.Proofs.Session.Oblivious

/-!
# What a message does depends on little of what was sent

Taking a message answers and logs the same whatever the send queue holds and however many received
bytes have been counted. Counting them is all that can tell two ways of cutting the input apart.
-/

namespace RtmpEndpoint.Link

open RtmpEndpoint.Flow (Layer SendQueue Window)
open RtmpEndpoint.Flow.Layer (oblivious_pure oblivious_bind)

/-- The link with another queue and other counts of received bytes. -/
def hide (counts : UInt64 × UInt64) (queue : SendQueue) (link : Link) : Link :=
  { link with
    window := { link.window with unacknowledged := counts.1, received := counts.2 }
    session := { link.session with queue } }

/-- The queue is hidden in a link, and the counts of received bytes. -/
def layer : Layer Link := ⟨UInt64 × UInt64, (·.session.queue), hide⟩

/-- An action that is oblivious of what is hidden in its link. -/
abbrev Oblivious {α : Type} (x : Link → α × Link) : Prop := layer.Oblivious x

variable {link : Link}

theorem oblivious_onSession {x : Session.Action Unit} (h : Session.Oblivious x) :
    Oblivious (onSession x) := by
  intro link hopen
  obtain ⟨answer, t, log, hface, hrun⟩ := h link.session hopen
  cases answer with
  | ok =>
    refine ⟨.ok (), { link with session := t }, log, hface, ?_⟩
    intro counts q hlook
    have hq : x { link.session with queue := q } = (.ok (), { t with queue := q.replay log }) :=
      hrun () q hlook
    simp only [layer, hide, onSession, Transition.focus, hq]
  | error error =>
    refine ⟨.error (.session error), { link with session := t }, log, hface, ?_⟩
    intro counts q hlook
    have hq : x { link.session with queue := q }
        = (.error error, { t with queue := q.replay log }) := hrun () q hlook
    simp only [layer, hide, onSession, Transition.focus, hq]

/-- Something that is sent in answer, without waiting for it. -/
theorem answer_eq (x : Session.Action Nat) :
    (do let _ ← onSession x : Action Unit) = onSession (Session.unawaited x) := by
  funext link
  simp only [Transition.bind_apply, onSession, Transition.focus, Session.unawaited]
  cases x link.session with
  | mk answer t => cases answer <;> rfl

theorem oblivious_answer {x : Session.Action Nat} (h : Session.Oblivious (Session.unawaited x)) :
    Oblivious (do let _ ← onSession x : Action Unit) := by
  rw [answer_eq]
  exact oblivious_onSession h

theorem oblivious_acknowledge (bytes : UInt32) :
    Oblivious (Transition.update (acknowledge bytes) : Action Unit) := by
  intro link _
  refine ⟨.ok (), acknowledge bytes link, [.acknowledged bytes], rfl, ?_⟩
  intro counts q hlook
  rfl

theorem setReadChunkSize_refused {size : UInt32} {error : Chunk.AssembleError}
    (h : link.assembler.setMaxSize size.toNat = .error error) :
    setReadChunkSize size link = (.error (.framing error), link) := by
  simp only [setReadChunkSize, h]

theorem setReadChunkSize_accepted {size : UInt32} {assembler : Chunk.Assembler}
    (h : link.assembler.setMaxSize size.toNat = .ok assembler) :
    setReadChunkSize size link = (.ok (),
      { link with assembler, readSize := link.readSize.setChunk size.toNat }) := by
  simp only [setReadChunkSize, h]

theorem oblivious_setReadChunkSize (size : UInt32) : Oblivious (setReadChunkSize size) := by
  intro link
  cases hs : link.assembler.setMaxSize size.toNat with
  | error error => exact .of_frame (t := link) rfl fun _ _ => setReadChunkSize_refused hs
  | ok assembler =>
    have hrun (counts : UInt64 × UInt64) (q : SendQueue) :
        setReadChunkSize size (link.hide counts q) = (.ok (), hide counts q
          { link with assembler, readSize := link.readSize.setChunk size.toNat }) :=
      setReadChunkSize_accepted hs
    exact .of_frame (s := link)
      (t := { link with assembler, readSize := link.readSize.setChunk size.toNat }) rfl hrun

theorem setPeerBandwidth_accepted {size : UInt32} {limit : BandwidthLimit}
    (h : link.window.accepts size limit = true) :
    setPeerBandwidth size limit link
      = (do let _ ← onSession (Session.sendControl (.windowAcknowledgementSize size)) : Action Unit)
          { link with
            window := { link.window with writeSize := some size, limit := some limit } } := by
  simp only [setPeerBandwidth, Window.applyBandwidth, h, if_true]

theorem setPeerBandwidth_ignored {size : UInt32} {limit : BandwidthLimit}
    (h : link.window.accepts size limit = false) :
    setPeerBandwidth size limit link = (.ok (), link) := by
  simp only [setPeerBandwidth, Window.applyBandwidth, h, Bool.false_eq_true, if_false]

theorem oblivious_setPeerBandwidth (size : UInt32) (limit : BandwidthLimit) :
    Oblivious (setPeerBandwidth size limit) := by
  intro link
  have haccepts (counts : UInt64 × UInt64) (q : SendQueue) :
      (link.hide counts q).window.accepts size limit = link.window.accepts size limit := by
    cases limit <;> rfl
  cases ha : link.window.accepts size limit with
  | false =>
    exact .of_frame (t := link) rfl
      fun counts q => setPeerBandwidth_ignored ((haccepts counts q).trans ha)
  | true =>
    have hanswer := oblivious_answer
      (Session.oblivious_sendControl (.windowAcknowledgementSize size))
    exact (hanswer { link with
      window := { link.window with writeSize := some size, limit := some limit } }).of_eq rfl
      fun counts q => setPeerBandwidth_accepted ((haccepts counts q).trans ha)

theorem oblivious_control (message : Message) : Oblivious (control message) := by
  cases message with
  | setChunkSize size => exact oblivious_setReadChunkSize size
  | acknowledgement bytes => exact oblivious_acknowledge bytes
  | setPeerBandwidth size limit => exact oblivious_setPeerBandwidth size limit
  | abort chunkStreamId =>
    exact fun link => .of_frame
      (t := { link with assembler := link.assembler.abort chunkStreamId }) rfl fun _ _ => rfl
  | windowAcknowledgementSize size =>
    exact fun link => .of_frame
      (t := { link with window := link.window.setReadSize size }) rfl fun _ _ => rfl
  | userControl | audio | video | command | data | unknown => exact oblivious_pure ()

/-! ## Taking messages -/

/-- Routes a payload to the session. -/
def dispatch (payload : Payload) : Action Unit := fun link =>
  (.ok (), { link with session := link.session.dispatch payload })

theorem oblivious_linkDispatch (payload : Payload) : Oblivious (dispatch payload) := by
  have hsession : Session.Oblivious
      (fun s => (.ok (), s.dispatch payload) : Session.Action Unit) := by
    intro s
    have hdone : ∀ _ : Unit, Session.Oblivious (pure () : Session.Action Unit) :=
      fun _ => oblivious_pure ()
    exact ((Session.oblivious_dispatch payload s).andThen hdone).of_eq rfl fun _ _ => rfl
  exact oblivious_onSession hsession

/-- A message that only a ping request is answered to. -/
def answerPing (decoded : Except Message.DecodeError Message) : Action Unit :=
  match decoded with
  | .ok (.userControl (.pingRequest timestamp)) => do
    let _ ← onSession (Session.sendControl (.userControl (.pingResponse timestamp)))
  | _ => pure ()

theorem oblivious_answerPing (decoded : Except Message.DecodeError Message) :
    Oblivious (answerPing decoded) := by
  unfold answerPing
  split
  · exact oblivious_answer (Session.oblivious_sendControl _)
  · exact oblivious_pure ()

/-- A message of a control type has to be well formed. -/
def obeyControl (decoded : Except Message.DecodeError Message) : Action Unit :=
  match decoded with
  | .ok message => control message
  | .error error => Transition.fail (.control error)

theorem oblivious_obeyControl (decoded : Except Message.DecodeError Message) :
    Oblivious (obeyControl decoded) := by
  cases decoded with
  | ok message => exact oblivious_control message
  | error error => exact fun link => .of_frame (t := link) rfl fun _ _ => rfl

/-- The three ways that a message can go. -/
theorem deliver_eq (payload : Payload) :
    deliver payload =
      if payload.tag.isProtocolControl then obeyControl (Message.decode payload.tag payload.data)
      else if payload.tag = .userControl then
        answerPing (Message.decode payload.tag payload.data)
      else dispatch payload := by
  funext link
  unfold deliver
  split
  · cases Message.decode payload.tag payload.data <;> rfl
  · split
    · cases Message.decode payload.tag payload.data with
      | error error => rfl
      | ok message =>
        cases message with
        | userControl event => cases event <;> rfl
        | _ => rfl
    · rfl

theorem oblivious_deliver (payload : Payload) : Oblivious (deliver payload) := by
  rw [deliver_eq]
  split
  · exact oblivious_obeyControl _
  · split
    · exact oblivious_answerPing _
    · exact oblivious_linkDispatch payload

theorem oblivious_deliverAll (payloads : List Payload) : Oblivious (deliverAll payloads) := by
  induction payloads with
  | nil => exact oblivious_pure ()
  | cons payload rest ih => exact oblivious_bind (oblivious_deliver payload) fun _ => ih

/-- Taking a message is oblivious of the queue and of how much has been counted. -/
theorem oblivious_receive (payload : Payload) : Oblivious (receive payload) := by
  unfold receive
  split
  · split
    · exact oblivious_deliverAll _
    · exact oblivious_pure ()
  · exact oblivious_deliver payload

end RtmpEndpoint.Link
