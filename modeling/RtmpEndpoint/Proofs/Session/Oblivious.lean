import RtmpEndpoint.Proofs.Flow.Log
import RtmpEndpoint.Session.Dispatch

/-!
# What a session does depends on little of its queue

Each action of a session, down to the procedures of an application, answers and logs the same
whatever its queue holds, as long as the queue looks the same. So an acknowledgement that was queued
or not makes no difference to what comes after it.
-/

namespace RtmpEndpoint.Session

open RtmpEndpoint.Flow (Layer SendQueue)
open RtmpEndpoint.Flow.Layer (oblivious_pure oblivious_bind oblivious_then)

/-- Only the queue is hidden in a session. -/
def layer : Layer Session := ⟨Unit, Session.queue, fun _ queue s => { s with queue }⟩

/-- An action that is oblivious of what the queue of its session holds. -/
abbrev Oblivious {α : Type} (x : Session → α × Session) : Prop := layer.Oblivious x

abbrev ObliviousAt {α : Type} (x : Session → α × Session) (s : Session) : Prop :=
  layer.ObliviousAt x s

variable {α : Type} {s : Session}

/-! ## Sending -/

theorem oblivious_onQueue {x : Transition SendQueue Flow.SendError Unit} (h : SendQueue.Logged x) :
    Oblivious (onQueue x) := by
  intro s hopen
  rcases h s.queue hopen with ⟨error, log, hx⟩ | ⟨log, hx⟩
  · refine ⟨.error (.send error), { s with queue := s.queue.replay log }, log, rfl, ?_⟩
    intro _ q hface
    simp only [onQueue, Transition.focus, layer, hx q hface]
  · refine ⟨.ok (), { s with queue := s.queue.replay log }, log, rfl, ?_⟩
    intro _ q hface
    obtain ⟨answer, hq⟩ := hx q hface
    simp only [onQueue, Transition.focus, layer, hq]

/-- The number of a completion is the one thing that tells what a queue holds. -/
theorem oblivious_unawaited {x : Transition SendQueue Flow.SendError Nat}
    (h : SendQueue.Logged x) : Oblivious (unawaited (onQueue x)) := by
  intro s hopen
  rcases h s.queue hopen with ⟨error, log, hx⟩ | ⟨log, hx⟩
  · refine ⟨.error (.send error), { s with queue := s.queue.replay log }, log, rfl, ?_⟩
    intro _ q hface
    simp only [unawaited, Transition.bind_apply, onQueue, Transition.focus, layer, hx q hface]
  · refine ⟨.ok (), { s with queue := s.queue.replay log }, log, rfl, ?_⟩
    intro _ q hface
    obtain ⟨answer, hq⟩ := hx q hface
    simp only [unawaited, Transition.bind_apply, onQueue, Transition.focus, layer, hq,
      Transition.pure_apply]

theorem oblivious_encode (message : Message) : Oblivious (encode message) := by
  intro s
  cases he : Message.encode message with
  | ok encoded => exact .of_frame rfl fun _ _ => by simp only [encode, he]; rfl
  | error error => exact .of_frame rfl fun _ _ => by simp only [encode, he]; rfl

theorem unawaited_bind {β : Type} (x : Action β) (f : β → Action Nat) :
    unawaited (x >>= f) = x >>= fun a => unawaited (f a) := by
  funext s
  simp only [unawaited, Transition.bind_apply]
  cases x s with
  | mk answer t => cases answer <;> rfl

theorem oblivious_sendMessage (csid streamId : UInt32) (timestamp : Timestamp)
    (message : Message) : Oblivious (unawaited (sendMessage csid streamId timestamp message)) := by
  rw [sendMessage, unawaited_bind]
  exact oblivious_bind (oblivious_encode message)
    fun _ => oblivious_unawaited (SendQueue.logged_send _ _)

theorem oblivious_sendControl (message : Message) : Oblivious (unawaited (sendControl message)) :=
  oblivious_sendMessage _ _ _ _

theorem oblivious_sendOn (stream : NetStream) (timestamp : Timestamp) (message : Message) :
    Oblivious (unawaited (sendOn stream timestamp message)) :=
  oblivious_sendMessage _ _ _ _

theorem oblivious_setWriteChunkSize (size : UInt32) :
    Oblivious (unawaited (setWriteChunkSize size)) := by
  rw [setWriteChunkSize, unawaited_bind]
  exact oblivious_bind (oblivious_encode _)
    fun _ => oblivious_unawaited (SendQueue.logged_setChunkSize _ _)

/-! ## Streams -/

/-- The action neither looks at the queue nor changes it. -/
def SparesQueue (x : Session → α × Session) : Prop :=
  ∀ s q, x { s with queue := q } = ((x s).1, { (x s).2 with queue := q })

theorem SparesQueue.queue {x : Session → α × Session} (h : SparesQueue x) (s : Session) :
    (x s).2.queue = s.queue :=
  congrArg (·.2.queue) (h s s.queue)

theorem SparesQueue.oblivious {x : Session → α × Session} (h : SparesQueue x) : Oblivious x :=
  fun s => .of_frame (h.queue s) fun _ q => h s q

theorem spares_allocateChunkStream : SparesQueue allocateChunkStream := by
  intro s q
  cases hr : s.registry.allocateChunkStream <;> simp only [allocateChunkStream, hr]

theorem spares_addMessageStream (build : UInt32 → MessageStream) :
    SparesQueue (addMessageStream build) := by
  intro s q
  cases hr : s.registry.add build <;> simp only [addMessageStream, hr]

theorem spares_putNetStream (stream : NetStream) :
    SparesQueue fun s => ((), s.putNetStream stream) := by
  intro s q
  cases hr : s.netStreams.get? stream.id <;>
    simp only [putNetStream, hr, releaseChunkStream]

theorem spares_createNetStream : SparesQueue createNetStream := by
  intro s q
  have hallocate := spares_allocateChunkStream s q
  cases ha : allocateChunkStream s with
  | mk answer t =>
    rw [ha] at hallocate
    cases answer with
    | error error => simp only [createNetStream, ha, hallocate]
    | ok chunkStreamId =>
      have hadd := spares_addMessageStream .forNetStream t q
      cases hs : addMessageStream .forNetStream t with
      | mk answer u =>
        rw [hs] at hadd
        cases answer with
        | error error => simp only [createNetStream, ha, hallocate, hs, hadd, releaseChunkStream]
        | ok id =>
          have hput := congrArg (·.2) (spares_putNetStream ⟨id, chunkStreamId⟩ u q)
          simp only [createNetStream, ha, hallocate, hs, hadd]
          exact congrArg _ hput

theorem spares_deleteNetStream (id : UInt32) : SparesQueue (deleteNetStream id) := by
  intro s q
  cases hr : s.netStreams.get? id <;>
    simp only [deleteNetStream, hr, removeMessageStream, releaseChunkStream]

/-! ## Procedures -/

/-- What a session tells about its queue can be seen from outside. -/
theorem oblivious_inspect {view : Session → α} (look : Flow.SendQueue.Face → α)
    (h : ∀ s, view s = look s.queue.face) : Oblivious fun s => (view s, s) := by
  intro s _
  refine ⟨view s, s, [], rfl, ?_⟩
  intro _ q hface
  have hview : view { s with queue := q } = view s := by
    rw [h, h]
    exact congrArg look hface
  exact congrArg (·, ({ s with queue := q } : Session)) hview

/-- Whatever a procedure asks of its session. -/
theorem oblivious_perform (operation : Application.Operation) :
    Oblivious fun s => s.perform operation := by
  cases operation with
  | connectionId | isClosed | information | messageStreamIds | liveChunkStreams | close
  | removeMessageStream | releaseChunkStream =>
    exact SparesQueue.oblivious fun _ _ => rfl
  | unacknowledgedBytes => exact oblivious_inspect (·.counter.bytes) fun _ => rfl
  | writeChunkSize => exact oblivious_inspect (·.maxSize.value) fun _ => rfl
  | createNetStream => exact spares_createNetStream.oblivious
  | deleteNetStream id => exact (spares_deleteNetStream id).oblivious
  | netStream id => exact SparesQueue.oblivious fun _ _ => rfl
  | createMessageStream => exact (spares_addMessageStream _).oblivious
  | allocateChunkStream => exact spares_allocateChunkStream.oblivious
  | send stream timestamp message => exact oblivious_sendOn stream timestamp message
  | sendMessage csid streamId timestamp message =>
    exact oblivious_sendMessage csid streamId timestamp message
  | sendControl message => exact oblivious_sendControl message
  | setWriteChunkSize size => exact oblivious_setWriteChunkSize size

/-- So a whole procedure is oblivious, one operation after another. -/
theorem oblivious_runProcedure (procedure : Application.Procedure α) :
    Oblivious (runProcedure procedure) := by
  induction procedure with
  | done value => exact SparesQueue.oblivious fun _ _ => rfl
  | perform operation next ih => exact fun s => (oblivious_perform operation s).andThen ih

theorem oblivious_invoke (controller : Application.Controller) (streamId : UInt32)
    (command : Command) : Oblivious (invoke controller streamId command) := by
  intro s
  have hrun := oblivious_runProcedure (controller.invoke streamId command)
    (s.note (.invoked controller.name streamId command))
  have hreply : ∀ outcome : Application.Outcome,
      Oblivious fun s => (outcome.reply? command, s) :=
    fun _ => SparesQueue.oblivious fun _ _ => rfl
  exact (hrun.andThen hreply).of_eq rfl fun _ _ => rfl

/-! ## Commands and messages -/

theorem oblivious_replyOnControl (request reply : Command) :
    Oblivious (replyOnControl request reply) :=
  oblivious_sendControl _

theorem oblivious_announce (config : Config) : Oblivious (announce config) :=
  oblivious_then (oblivious_sendControl _)
    (oblivious_then (oblivious_sendControl _) (oblivious_setWriteChunkSize _))

/-- An action that goes on as another one does, once what is beside the queue has changed. -/
theorem obliviousAt_of_run {x y : Action Unit} {t : Session} (hy : Oblivious y)
    (hq : t.queue = s.queue) (h : ∀ q, x { s with queue := q } = y { t with queue := q }) :
    ObliviousAt x s :=
  (hy t).of_eq hq fun _ q => h q

/-- An action that is over once what is beside the queue has changed. -/
theorem obliviousAt_of_done {x : Action Unit} {t : Session} (hq : t.queue = s.queue)
    (h : ∀ q, x { s with queue := q } = (.ok (), { t with queue := q })) : ObliviousAt x s :=
  .of_frame hq fun _ q => h q

theorem connect_again {command : Command} (h : s.connection.isSome = true) :
    connect command s = replyOnControl command
      (.error command.transactionId "NetConnection.Connect.Rejected"
        "Connection already established") s := by
  rw [connect, if_pos h]

theorem connect_nowhere {command : Command} (h : s.connection.isSome = false)
    (hi : ConnectionInformation.ofCommandObject? command.object = none) :
    connect command s = (.ok (), s.close) := by
  simp only [connect, h, hi, Bool.false_eq_true, if_false]

theorem connect_unserved {command : Command} {information : ConnectionInformation}
    (h : s.connection.isSome = false)
    (hi : ConnectionInformation.ofCommandObject? command.object = some information)
    (ha : s.applications.get? information.app = none) :
    connect command s = (.ok (), s.close) := by
  simp only [connect, h, hi, ha, Bool.false_eq_true, if_false]

/-- What a client that has connected is sent. -/
def welcome (command : Command) (information : ConnectionInformation) (config : Config) :
    Action Unit := do
  announce config
  replyOnControl command (connectResult config information.objectEncoding command.transactionId)

theorem connect_served {command : Command} {information : ConnectionInformation}
    {controller : Application.Controller} (h : s.connection.isSome = false)
    (hi : ConnectionInformation.ofCommandObject? command.object = some information)
    (ha : s.applications.get? information.app = some controller) :
    connect command s = welcome command information s.config
      { s with connection := some ⟨information, controller⟩ } := by
  simp only [connect, h, hi, ha, Bool.false_eq_true, if_false, welcome]

theorem oblivious_welcome (command : Command) (information : ConnectionInformation)
    (config : Config) : Oblivious (welcome command information config) :=
  oblivious_bind (oblivious_announce config) fun _ => oblivious_replyOnControl _ _

theorem oblivious_connect (command : Command) : Oblivious (connect command) := by
  intro s
  cases hc : s.connection.isSome with
  | true => exact obliviousAt_of_run (oblivious_replyOnControl command _) rfl fun _ => connect_again hc
  | false =>
    cases hi : ConnectionInformation.ofCommandObject? command.object with
    | none => exact obliviousAt_of_done (t := s.close) rfl fun _ => connect_nowhere hc hi
    | some information =>
      cases ha : s.applications.get? information.app with
      | none => exact obliviousAt_of_done (t := s.close) rfl fun _ => connect_unserved hc hi ha
      | some controller =>
        exact obliviousAt_of_run (t := { s with connection := some ⟨information, controller⟩ })
          (oblivious_welcome command information s.config) rfl fun _ => connect_served hc hi ha

/-- The reply to a `createStream` that was tried. -/
def replyToCreateStream (command : Command) (created : Except SessionError NetStream) :
    Action Unit :=
  match created with
  | .ok stream =>
    replyOnControl command (.result command.transactionId .null (.number (.ofNat stream.id.toNat)))
  | .error error =>
    replyOnControl command (.error command.transactionId createStreamFailed error.message)

theorem createStream_eq (command : Command) (h : s.connection.isNone = false) :
    createStream command s
      = replyToCreateStream command (createNetStream s).1 (createNetStream s).2 := by
  simp only [createStream, h, Bool.false_eq_true, if_false]
  cases createNetStream s with
  | mk created t => cases created <;> rfl

theorem oblivious_createStream (command : Command) : Oblivious (createStream command) := by
  intro s
  cases hc : s.connection.isNone with
  | true =>
    refine obliviousAt_of_run (oblivious_replyOnControl command
      (.error command.transactionId createStreamFailed "Not connected")) rfl fun q => ?_
    have hq : ({ s with queue := q } : Session).connection.isNone = true := hc
    rw [createStream, if_pos hq]
  | false =>
    have hreply : ∀ created, Oblivious (replyToCreateStream command created) := by
      intro created
      cases created with
      | ok stream => exact oblivious_replyOnControl command _
      | error error => exact oblivious_replyOnControl command _
    have hseq := (spares_createNetStream.oblivious s).andThen hreply
    exact hseq.of_eq rfl fun _ _ => createStream_eq command hc

theorem oblivious_deleteStream (command : Command) : Oblivious (deleteStream command) := by
  cases hid : streamIdOf? command.arguments with
  | none => exact SparesQueue.oblivious fun s q => by simp only [deleteStream, hid]
  | some id =>
    apply SparesQueue.oblivious
    intro s q
    simp only [deleteStream, hid, spares_deleteNetStream id s q]

/-- The reply to a call into the app, if one is wanted. -/
def replyToCall (command : Command) (reply : Option Command) : Action Unit :=
  match reply with
  | none => pure ()
  | some reply => replyOnControl command reply

theorem callApp_eq (command : Command) {app : ConnectedApp} (h : s.connection = some app) :
    callApp command s
      = replyToCall command (s.invoke app.controller controlMessageStreamId command).1
        (s.invoke app.controller controlMessageStreamId command).2 := by
  simp only [callApp, h]
  cases s.invoke app.controller controlMessageStreamId command with
  | mk reply t => cases reply <;> rfl

theorem callApp_unanswered (command : Command) (h : s.connection = none)
    (hz : command.transactionId.isZero = true) : callApp command s = (.ok (), s) := by
  simp only [callApp, h, hz, if_true]

theorem callApp_unconnected (command : Command) (h : s.connection = none)
    (hz : command.transactionId.isZero = false) :
    callApp command s = replyOnControl command
      (.error command.transactionId Application.CallError.callFailed "Not connected") s := by
  simp only [callApp, h, hz, Bool.false_eq_true, if_false]

theorem oblivious_callApp (command : Command) : Oblivious (callApp command) := by
  intro s
  cases hc : s.connection with
  | none =>
    cases hz : command.transactionId.isZero with
    | true => exact obliviousAt_of_done (t := s) rfl fun _ => callApp_unanswered command hc hz
    | false =>
      exact obliviousAt_of_run (t := s) (oblivious_replyOnControl command _) rfl
        fun _ => callApp_unconnected command hc hz
  | some app =>
    have hreply : ∀ reply, Oblivious (replyToCall command reply) := by
      intro reply
      cases reply with
      | none => exact oblivious_pure ()
      | some reply => exact oblivious_replyOnControl command reply
    have hseq := (oblivious_invoke app.controller controlMessageStreamId command s).andThen hreply
    exact hseq.of_eq rfl fun _ _ => callApp_eq command hc

theorem oblivious_connectionCommand (command : Command) :
    Oblivious (connectionCommand command) := by
  unfold connectionCommand
  split
  · exact oblivious_connect command
  · exact oblivious_createStream command
  · exact oblivious_deleteStream command
  · exact SparesQueue.oblivious fun _ _ => rfl
  · exact oblivious_callApp command

theorem notify_eq (message : Inbound) {app : ConnectedApp} (h : s.connection = some app) :
    notify message s = (.ok (),
      (runProcedure (app.controller.onStreamMessage message.streamId message)
        (s.note (.notified app.controller.name message.streamId message))).2) := by
  simp only [notify, h]

theorem oblivious_notify (message : Inbound) : Oblivious (notify message) := by
  intro s
  cases hc : s.connection with
  | none => exact obliviousAt_of_done (t := s) rfl fun q => by simp only [notify, hc]
  | some app =>
    have hrun := oblivious_runProcedure
      (app.controller.onStreamMessage message.streamId message)
      (s.note (.notified app.controller.name message.streamId message))
    have hdone : ∀ _ : Unit, Oblivious (pure () : Action Unit) := fun _ => oblivious_pure ()
    exact (hrun.andThen hdone).of_eq rfl fun _ _ => notify_eq message hc

/-- The reply to a call on a stream, if one is wanted and the stream is still there. -/
def replyOnStream (streamId : UInt32) (reply : Option Command) : Action Unit := fun s =>
  match reply with
  | none => (.ok (), s)
  | some reply =>
    match s.netStream? streamId with
    | none => (.ok (), s)
    | some stream => unawaited (sendOn stream .zero (.command reply)) s

theorem oblivious_replyOnStream (streamId : UInt32) (reply : Option Command) :
    Oblivious (replyOnStream streamId reply) := by
  cases reply with
  | none => exact oblivious_pure ()
  | some reply =>
    intro s
    cases hs : s.netStream? streamId with
    | none =>
      refine obliviousAt_of_done (t := s) rfl fun q => ?_
      have hq : ({ s with queue := q } : Session).netStream? streamId = none := hs
      simp only [replyOnStream, hq]
    | some stream =>
      refine obliviousAt_of_run (t := s) (oblivious_sendOn stream .zero (.command reply)) rfl
        fun q => ?_
      have hq : ({ s with queue := q } : Session).netStream? streamId = some stream := hs
      simp only [replyOnStream, hq]

theorem callOnStream_eq (streamId : UInt32) (command : Command) {app : ConnectedApp}
    (h : s.connection = some app) :
    callOnStream streamId command s
      = replyOnStream streamId (s.invoke app.controller streamId command).1
        (s.invoke app.controller streamId command).2 := by
  simp only [callOnStream, h, replyOnStream]
  cases s.invoke app.controller streamId command with
  | mk reply t => cases reply <;> rfl

theorem oblivious_callOnStream (streamId : UInt32) (command : Command) :
    Oblivious (callOnStream streamId command) := by
  intro s
  cases hc : s.connection with
  | none => exact obliviousAt_of_done (t := s) rfl fun q => by simp only [callOnStream, hc]
  | some app =>
    have hseq := (oblivious_invoke app.controller streamId command s).andThen
      (oblivious_replyOnStream streamId)
    exact hseq.of_eq rfl fun _ _ => callOnStream_eq streamId command hc

theorem oblivious_streamCommand (streamId : UInt32) (command : Command) :
    Oblivious (streamCommand streamId command) := by
  have hdelete : ∀ id, Oblivious (Transition.update fun s => (deleteNetStream id s).2 :
      Action Unit) := by
    intro id
    apply SparesQueue.oblivious
    intro s q
    simp only [Transition.update_apply, spares_deleteNetStream id s q]
  unfold streamCommand
  split
  · exact hdelete streamId
  · exact hdelete _
  · exact oblivious_callOnStream streamId command

theorem oblivious_handle (handler : Handler) (message : Inbound) :
    Oblivious (handle handler message) := by
  cases handler with
  | netConnection =>
    obtain ⟨timestamp, streamId, message⟩ := message
    cases message with
    | command command => exact oblivious_connectionCommand command
    | _ => exact oblivious_pure ()
  | netStream =>
    obtain ⟨timestamp, streamId, message⟩ := message
    cases message with
    | command command => exact oblivious_streamCommand streamId command
    | _ => exact oblivious_notify _
  | custom name take =>
    intro s
    exact (oblivious_runProcedure (take message) (s.note (.handled name message))).of_eq rfl
      fun _ _ => rfl

/-- Where a message goes has nothing to do with the queue, nor does what comes of it. -/
theorem oblivious_dispatch (payload : Payload) :
    Oblivious fun s => ((), s.dispatch payload) := by
  intro s
  cases hr : s.route? payload with
  | none =>
    have hdropped (q : SendQueue) :
        ({ s with queue := q } : Session).dispatch payload = { s with queue := q } := by
      have hq : ({ s with queue := q } : Session).route? payload = none := hr
      simp only [dispatch, hq]
    exact .of_frame rfl fun _ q => congrArg ((), ·) (hdropped q)
  | some target =>
    have hdone : ∀ _ : Except SessionError Unit, Oblivious fun s => ((), s) :=
      fun _ => SparesQueue.oblivious fun _ _ => rfl
    refine ((oblivious_handle target.1 target.2 s).andThen hdone).of_eq rfl fun _ q => ?_
    have hq : ({ s with queue := q } : Session).route? payload = some target := hr
    simp only [layer, dispatch, hq]

end RtmpEndpoint.Session
