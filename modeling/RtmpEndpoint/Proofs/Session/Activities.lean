import RtmpEndpoint.Proofs.Session.Slots

/-!
# What happens to a session

A session is used by its owner, by its peer and by the applications that the peer calls. All of it
comes to operations, so the entries of an id follow the operations of a run, whatever the run is.
-/

namespace RtmpEndpoint.Session

open Application (Operation Procedure)

variable {α : Type} {s t : Session} {id : UInt32}

/-! ## What a message comes to -/

/-- The operations of a call into the app. -/
def callOperations (streamId : UInt32) (command : Command) (s : Session) : List Operation :=
  match s.connection with
  | none => []
  | some app =>
    performed (app.controller.invoke streamId command)
      (s.note (.invoked app.controller.name streamId command))

def connectionOperations (command : Command) (s : Session) : List Operation :=
  match command.name with
  | "connect" => []
  | "createStream" => if s.connection.isNone then [] else [.createNetStream]
  | "deleteStream" => ((streamIdOf? command.arguments).map .deleteNetStream).toList
  | "close" => [.close]
  | _ => s.callOperations controlMessageStreamId command

def streamOperations (streamId : UInt32) (command : Command) (s : Session) : List Operation :=
  match command.name with
  | "closeStream" => [.deleteNetStream streamId]
  | "deleteStream" => [.deleteNetStream ((streamIdOf? command.arguments).getD streamId)]
  | _ => s.callOperations streamId command

def noticeOperations (message : Inbound) (s : Session) : List Operation :=
  match s.connection with
  | none => []
  | some app =>
    performed (app.controller.onStreamMessage message.streamId message)
      (s.note (.notified app.controller.name message.streamId message))

/-- The operations that a handler carries out for a message. -/
def handlerOperations (handler : Handler) (message : Inbound) (s : Session) : List Operation :=
  match handler, message.message with
  | .netConnection, .command command => s.connectionOperations command
  | .netConnection, _ => []
  | .netStream, .command command => s.streamOperations message.streamId command
  | .netStream, _ => s.noticeOperations message
  | .custom name take, _ => performed (take message) (s.note (.handled name message))

def dispatchOperations (payload : Payload) (s : Session) : List Operation :=
  match s.route? payload with
  | some (handler, message) => s.handlerOperations handler message
  | none => []

/-- The commands that a session carries out itself. -/
def connectionNames : List String := ["connect", "createStream", "deleteStream", "close"]

def streamNames : List String := ["closeStream", "deleteStream"]

variable {command : Command} {streamId : UInt32}

/-- Any other command is a call into the app. -/
theorem connectionCommand_of_call (h : command.name ∉ connectionNames) :
    connectionCommand command = callApp command := by
  unfold connectionCommand
  split <;> simp_all [connectionNames]

theorem streamCommand_of_call (h : command.name ∉ streamNames) :
    streamCommand streamId command = callOnStream streamId command := by
  unfold streamCommand
  split <;> simp_all [streamNames]

/-! ## The entries of an id follow them -/

/-- What the action does to the streams is what these operations do, one after the other. -/
def AmountsTo (x : Session → α × Session) (operations : Session → List Operation) : Prop :=
  ∀ s id, Slot.Follows id (operations s) (s.slot id) ((x s).2.slot id)

theorem QueueOnly.amountsTo {x : Session → α × Session} (h : QueueOnly x) :
    AmountsTo x fun _ => [] := by
  intro s id
  rw [h.slot s id]
  exact .nil _

theorem amountsTo_perform (operation : Operation) :
    AmountsTo (fun s => s.perform operation) fun _ => [operation] :=
  fun s id => (moves_perform id operation s).follows

theorem amountsTo_connect (command : Command) : AmountsTo (connect command) fun _ => [] := by
  intro s id
  cases hc : s.connection.isSome with
  | true =>
    rw [connect_again hc]
    exact (queueOnly_replyOnControl command _).amountsTo s id
  | false =>
    cases hi : ConnectionInformation.ofCommandObject? command.object with
    | none =>
      rw [connect_nowhere hc hi]
      exact .nil _
    | some information =>
      cases ha : s.applications.get? information.app with
      | none =>
        rw [connect_unserved hc hi ha]
        exact .nil _
      | some controller =>
        rw [connect_served hc hi ha]
        exact (queueOnly_welcome command information s.config).amountsTo
          { s with connection := some ⟨information, controller⟩ } id

theorem amountsTo_createStream (command : Command) : AmountsTo (createStream command)
    fun s => if s.connection.isNone then [] else [.createNetStream] := by
  intro s id
  cases hc : s.connection.isNone with
  | true =>
    simp only [hc, if_true]
    rw [createStream, if_pos hc]
    exact (queueOnly_replyOnControl command _).amountsTo s id
  | false =>
    simp only [hc, Bool.false_eq_true, if_false]
    rw [createStream_eq command hc]
    exact (moves_createNetStream id s).follows.append
      ((queueOnly_replyToCreateStream command _).amountsTo _ id)

/-- A call into the app comes to what its procedure does. The reply is only queued. -/
theorem follows_call {app : ConnectedApp} (hc : s.connection = some app) (streamId : UInt32)
    (command : Command) {reply : Option Command → Action Unit}
    (hreply : ∀ answer, QueueOnly (reply answer)) (id : UInt32) :
    Slot.Follows id (s.callOperations streamId command) (s.slot id)
      ((reply (s.invoke app.controller streamId command).1
        (s.invoke app.controller streamId command).2).2.slot id) := by
  have hrun := follows_runProcedure id (app.controller.invoke streamId command)
    (s.note (.invoked app.controller.name streamId command))
  have hqueued := (hreply (s.invoke app.controller streamId command).1).amountsTo
    (s.invoke app.controller streamId command).2 id
  simp only [callOperations, hc]
  rw [← List.append_nil (performed _ _)]
  exact hrun.append hqueued

theorem amountsTo_callApp (command : Command) : AmountsTo (callApp command)
    fun s => s.callOperations controlMessageStreamId command := by
  intro s id
  cases hc : s.connection with
  | none =>
    simp only [callOperations, hc]
    cases hz : command.transactionId.isZero with
    | true =>
      rw [callApp_unanswered command hc hz]
      exact .nil _
    | false =>
      rw [callApp_unconnected command hc hz]
      exact (queueOnly_replyOnControl command _).amountsTo s id
  | some app =>
    rw [callApp_eq command hc]
    exact follows_call hc controlMessageStreamId command (queueOnly_replyToCall command) id

theorem amountsTo_connectionCommand (command : Command) :
    AmountsTo (connectionCommand command) fun s => s.connectionOperations command := by
  intro s id
  unfold connectionOperations
  split
  · next hname =>
    simp only [connectionCommand, hname]
    exact amountsTo_connect command s id
  · next hname =>
    simp only [connectionCommand, hname]
    exact amountsTo_createStream command s id
  · next hname =>
    simp only [connectionCommand, hname, deleteStream]
    cases hid : streamIdOf? command.arguments with
    | none => exact .nil _
    | some target => exact amountsTo_perform (.deleteNetStream target) s id
  · next hname =>
    simp only [connectionCommand, hname]
    exact amountsTo_perform .close s id
  · have hname : command.name ∉ connectionNames := by simp_all [connectionNames]
    rw [connectionCommand_of_call hname]
    exact amountsTo_callApp command s id

theorem amountsTo_callOnStream (streamId : UInt32) (command : Command) :
    AmountsTo (callOnStream streamId command) fun s => s.callOperations streamId command := by
  intro s id
  cases hc : s.connection with
  | none =>
    simp only [callOperations, callOnStream, hc]
    exact .nil _
  | some app =>
    rw [callOnStream_eq streamId command hc]
    exact follows_call hc streamId command (queueOnly_replyOnStream streamId) id

theorem amountsTo_streamCommand (streamId : UInt32) (command : Command) :
    AmountsTo (streamCommand streamId command) fun s => s.streamOperations streamId command := by
  intro s id
  unfold streamOperations
  split
  · next hname =>
    simp only [streamCommand, hname]
    exact amountsTo_perform (.deleteNetStream streamId) s id
  · next hname =>
    simp only [streamCommand, hname]
    exact amountsTo_perform (.deleteNetStream _) s id
  · have hname : command.name ∉ streamNames := by simp_all [streamNames]
    rw [streamCommand_of_call hname]
    exact amountsTo_callOnStream streamId command s id

theorem amountsTo_notify (message : Inbound) :
    AmountsTo (notify message) fun s => s.noticeOperations message := by
  intro s id
  cases hc : s.connection with
  | none =>
    simp only [noticeOperations, notify, hc]
    exact .nil _
  | some app =>
    simp only [noticeOperations, hc]
    rw [notify_eq message hc]
    exact follows_runProcedure id _ (s.note _)

theorem amountsTo_handle (handler : Handler) (message : Inbound) :
    AmountsTo (handle handler message) fun s => s.handlerOperations handler message := by
  obtain ⟨timestamp, streamId, message⟩ := message
  cases handler with
  | netConnection =>
    cases message with
    | command command => exact amountsTo_connectionCommand command
    | _ => exact (queueOnly_pure ()).amountsTo
  | netStream =>
    cases message with
    | command command => exact amountsTo_streamCommand streamId command
    | _ => exact amountsTo_notify _
  | custom name take => exact fun s id => follows_runProcedure id _ (s.note _)

theorem follows_dispatch (payload : Payload) (id : UInt32) (s : Session) :
    Slot.Follows id (s.dispatchOperations payload) (s.slot id) ((s.dispatch payload).slot id) := by
  cases hr : s.route? payload with
  | none =>
    simp only [dispatchOperations, dispatch, hr]
    exact .nil _
  | some target =>
    simp only [dispatchOperations, dispatch, hr]
    exact amountsTo_handle target.1 target.2 s id

/-! ## Runs -/

/-- What happens to a session that is open. -/
inductive Activity where
  /-- Its owner uses it. -/
  | performing (operation : Operation)
  /-- A payload of its peer comes in. -/
  | incoming (payload : Payload)
  /-- A handler is registered on the message stream of an id. -/
  | registering (id : UInt32) (tag : Message.Tag) (handler : Handler)
  /-- The writer takes from the queue, or the peer acknowledges bytes. -/
  | requeuing (queue : Flow.SendQueue)

namespace Activity

def take (s : Session) : Activity → Session
  | performing operation => (s.perform operation).2
  | incoming payload => s.dispatch payload
  | registering id tag handler =>
    match s.messageStream? id with
    | some stream => (registerHandler stream tag handler s).2
    | none => s
  | requeuing queue => { s with queue }

def operations (s : Session) : Activity → List Operation
  | performing operation => [operation]
  | incoming payload => s.dispatchOperations payload
  | registering _ _ _ => []
  | requeuing _ => []

end Activity

/-- The activities one after the other. -/
def run (activities : List Activity) (s : Session) : Session := activities.foldl Activity.take s

/-- All operations of a run. -/
def carriedOut : List Activity → Session → List Operation
  | [], _ => []
  | activity :: activities, s => activity.operations s ++ carriedOut activities (activity.take s)

theorem run_append (activities later : List Activity) (s : Session) :
    run (activities ++ later) s = run later (run activities s) := List.foldl_append

theorem carriedOut_append (activities later : List Activity) (s : Session) :
    carriedOut (activities ++ later) s
      = carriedOut activities s ++ carriedOut later (run activities s) := by
  induction activities generalizing s with
  | nil => rfl
  | cons activity activities ih =>
    simp only [List.cons_append, carriedOut, ih, List.append_assoc]
    rfl

/-- Each entry of a session is that of its id. -/
def Grounded (s : Session) : Prop := ∀ id, (s.slot id).Grounded id

theorem follows_registering (hs : s.Grounded) (target : UInt32) (tag : Message.Tag)
    (handler : Handler) (id : UInt32) :
    Slot.Follows id [] (s.slot id)
      (((Activity.registering target tag handler).take s).slot id) := by
  cases hstream : s.messageStream? target with
  | none =>
    simp only [Activity.take, hstream]
    exact .nil _
  | some stream =>
    have hid : stream.id = target := (hs target).messages stream hstream
    cases hfound : stream.handler? tag with
    | some found =>
      simp only [Activity.take, hstream, registerHandler, MessageStream.register, hfound]
      exact .nil _
    | none =>
      have hnext : (Activity.registering target tag handler).take s = { s with
          registry := s.registry.insert target ⟨target, [(tag, handler)] ++ stream.handlers⟩ } := by
        simp only [Activity.take, hstream, registerHandler, MessageStream.register, hfound, hid]
        rfl
      have hslot : ((Activity.registering target tag handler).take s).slot id
          = ⟨if target = id then some ⟨target, [(tag, handler)] ++ stream.handlers⟩
              else s.messageStream? id, s.netStream? id⟩ := by
        rw [hnext, slot, messageStream?, Registry.get?, Registry.insert, Table.get?_insert]
        rfl
      rw [hslot]
      split
      · next heq =>
        rw [← hid]
        exact .registered [(tag, handler)] (heq ▸ hstream) (.nil _)
      · exact .nil _

theorem follows_take (hs : s.Grounded) (activity : Activity) (id : UInt32) :
    Slot.Follows id (activity.operations s) (s.slot id) ((activity.take s).slot id) := by
  cases activity with
  | performing operation => exact (moves_perform id operation s).follows
  | incoming payload => exact follows_dispatch payload id s
  | registering target tag handler => exact follows_registering hs target tag handler id
  | requeuing queue => exact .nil _

theorem grounded_take (hs : s.Grounded) (activity : Activity) : (activity.take s).Grounded :=
  fun id => (follows_take hs activity id).grounded (hs id)

/-- In a whole run the entries of an id follow the operations of the run. -/
theorem follows_run (hs : s.Grounded) (activities : List Activity) (id : UInt32) :
    Slot.Follows id (carriedOut activities s) (s.slot id) ((run activities s).slot id) := by
  induction activities generalizing s with
  | nil => exact .nil _
  | cons activity activities ih =>
    exact (follows_take hs activity id).append (ih (grounded_take hs activity))

theorem grounded_run (hs : s.Grounded) (activities : List Activity) : (run activities s).Grounded :=
  fun id => (follows_run hs activities id).grounded (hs id)

theorem grounded_new (connectionId : Nat) (config : Config)
    (applications : Application.Applications) (queue : Flow.SendQueue) :
    ({ connectionId, config, applications, queue } : Session).Grounded := by
  intro id
  have hget : (({ connectionId, config, applications, queue } : Session).slot id).messages
      = if controlMessageStreamId = id then some .control else none := Table.get?_insert ..
  refine ⟨fun hcontrol => ?_, fun stream hstream => ?_, nofun⟩
  · rw [hget, if_pos hcontrol.symm]
    nofun
  · rw [hget] at hstream
    split at hstream
    · next heq =>
      cases hstream
      exact heq
    · cases hstream

end RtmpEndpoint.Session
