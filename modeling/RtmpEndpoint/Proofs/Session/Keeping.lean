import RtmpEndpoint.Proofs.Session.Bookkeeping

/-!
# What a session keeps

The operations of a session change its streams and its queue, and one of them closes it. All that a
message of the peer can do comes to operations, replies, calls that are noted and a client that
connects. What these keep is kept whatever messages come in, and that the session is closed is one
such thing.
-/

namespace RtmpEndpoint.Session

open Application (Operation Procedure)

variable {α : Type} {s t u : Session}

/-! ## Operations -/

/-- A session after operations. They change the streams and the queue and nothing else, and a
session that is closed stays closed. -/
structure Operated (s t : Session) : Prop where
  connectionId : t.connectionId = s.connectionId
  config : t.config = s.config
  applications : t.applications = s.applications
  connection : t.connection = s.connection
  calls : t.calls = s.calls
  isClosed : s.isClosed = true → t.isClosed = true

theorem Operated.trans (h : Operated s t) (h' : Operated t u) : Operated s u where
  connectionId := h'.connectionId.trans h.connectionId
  config := h'.config.trans h.config
  applications := h'.applications.trans h.applications
  connection := h'.connection.trans h.connection
  calls := h'.calls.trans h.calls
  isClosed := h'.isClosed ∘ h.isClosed

theorem operated_streams (queue : Flow.SendQueue) (registry : Registry MessageStream)
    (netStreams : Table NetStream) (s : Session) :
    Operated s { s with queue, registry, netStreams } := ⟨rfl, rfl, rfl, rfl, rfl, id⟩

theorem QueueOnly.operated {x : Session → α × Session} (h : QueueOnly x) (s : Session) :
    Operated s (x s).2 := by
  obtain ⟨queue, hnext⟩ := h s
  rw [hnext]
  exact operated_streams queue s.registry s.netStreams s

theorem operated_allocateChunkStream (s : Session) : Operated s (allocateChunkStream s).2 := by
  unfold allocateChunkStream
  split <;> exact operated_streams _ _ _ s

theorem operated_addMessageStream (build : UInt32 → MessageStream) (s : Session) :
    Operated s (addMessageStream build s).2 := by
  unfold addMessageStream
  split <;> exact operated_streams _ _ _ s

theorem operated_putNetStream (stream : NetStream) (s : Session) :
    Operated s (s.putNetStream stream) := by
  simp only [putNetStream]
  split <;> exact operated_streams _ _ _ s

theorem operated_createNetStream (s : Session) : Operated s (createNetStream s).2 := by
  have hallocate := operated_allocateChunkStream s
  unfold createNetStream
  split
  · next ha => rwa [ha] at hallocate
  · next csid t ha =>
    rw [ha] at hallocate
    have hadd := hallocate.trans (operated_addMessageStream .forNetStream t)
    split
    · next hs =>
      rw [hs] at hadd
      exact hadd.trans (operated_streams _ _ _ _)
    · next id u hs =>
      rw [hs] at hadd
      exact hadd.trans (operated_putNetStream ⟨id, csid⟩ u)

theorem operated_deleteNetStream (id : UInt32) (s : Session) :
    Operated s (s.deleteNetStream id).2 := by
  unfold deleteNetStream
  split <;> exact operated_streams _ _ _ s

theorem operated_perform (operation : Operation) (s : Session) :
    Operated s (s.perform operation).2 := by
  cases operation with
  | createNetStream => exact operated_createNetStream s
  | deleteNetStream id => exact operated_deleteNetStream id s
  | createMessageStream => exact operated_addMessageStream _ s
  | allocateChunkStream => exact operated_allocateChunkStream s
  | send | sendMessage | sendControl =>
    exact (queueOnly_unawaited (queueOnly_sendMessage _ _ _ _)).operated s
  | setWriteChunkSize size =>
    exact (queueOnly_unawaited (queueOnly_setWriteChunkSize size)).operated s
  | close => exact ⟨rfl, rfl, rfl, rfl, rfl, fun _ => rfl⟩
  | connectionId | isClosed | information | unacknowledgedBytes | writeChunkSize | messageStreamIds
  | liveChunkStreams | netStream | removeMessageStream | releaseChunkStream =>
    exact operated_streams _ _ _ s

theorem operated_runProcedure (procedure : Procedure α) (s : Session) :
    Operated s (s.runProcedure procedure).2 := by
  induction procedure generalizing s with
  | done value => exact operated_streams s.queue s.registry s.netStreams s
  | perform operation next ih => exact (operated_perform operation s).trans (ih _ _)

/-! ## Messages -/

/-- What holds before the action holds after it. -/
def Preserves (p : Session → Prop) (x : Session → α × Session) : Prop := ∀ s, p s → p (x s).2

theorem Preserves.bind {β : Type} {p : Session → Prop} {x : Action α} {f : α → Action β}
    (hx : Preserves p x) (hf : ∀ a, Preserves p (f a)) : Preserves p (x >>= f) := by
  intro s hs
  have hnext := hx s hs
  rw [Transition.bind_apply]
  cases hrun : x s with
  | mk answer t =>
    rw [hrun] at hnext
    cases answer with
    | ok a => exact hf a t hnext
    | error error => exact hnext

/-- Whether a completion is kept makes no difference to the session. -/
theorem unawaited_snd (x : Action Nat) (s : Session) : (unawaited x s).2 = (x s).2 := by
  simp only [unawaited, Transition.bind_apply]
  cases x s with
  | mk answer t => cases answer <;> rfl

/-- What no operation, no call and no client that connects does away with. Replies are sent by
operations. -/
structure Upholds (p : Session → Prop) : Prop where
  perform : ∀ operation, Preserves p fun s => s.perform operation
  note : ∀ s call, p s → p (s.note call)
  connect : ∀ s app, p s → p { s with connection := some app }

namespace Upholds

variable {p : Session → Prop}

theorem runProcedure (h : Upholds p) (procedure : Procedure α) :
    Preserves p (Session.runProcedure procedure) := by
  induction procedure with
  | done value => exact fun _ => id
  | perform operation next ih => exact fun s hs => ih _ _ (h.perform operation s hs)

theorem sendControl (h : Upholds p) (message : Message) :
    Preserves p (Session.sendControl message) := by
  intro s hs
  rw [← unawaited_snd]
  exact h.perform (.sendControl message) s hs

theorem setWriteChunkSize (h : Upholds p) (size : UInt32) :
    Preserves p (Session.setWriteChunkSize size) := by
  intro s hs
  rw [← unawaited_snd]
  exact h.perform (.setWriteChunkSize size) s hs

theorem replyOnControl (h : Upholds p) (request reply : Command) :
    Preserves p (Session.replyOnControl request reply) :=
  h.perform (.sendControl _)

theorem welcome (h : Upholds p) (command : Command) (information : ConnectionInformation)
    (config : Config) : Preserves p (Session.welcome command information config) := by
  refine .bind (.bind (h.sendControl _) fun _ => .bind (h.sendControl _) fun _ => ?_)
    fun _ => h.replyOnControl _ _
  exact .bind (h.setWriteChunkSize _) fun _ _ => id

theorem replyToCreateStream (h : Upholds p) (command : Command)
    (created : Except SessionError NetStream) :
    Preserves p (Session.replyToCreateStream command created) := by
  cases created with
  | ok | error => exact h.replyOnControl command _

theorem replyToCall (h : Upholds p) (command : Command) (reply : Option Command) :
    Preserves p (Session.replyToCall command reply) := by
  cases reply with
  | none => exact fun _ => id
  | some reply => exact h.replyOnControl command reply

theorem replyOnStream (h : Upholds p) (streamId : UInt32) (reply : Option Command) :
    Preserves p (Session.replyOnStream streamId reply) := by
  intro s hs
  unfold Session.replyOnStream
  split
  · exact hs
  · next reply =>
    split
    · exact hs
    · next stream _ => exact h.perform (.send stream .zero (.command reply)) s hs

theorem invoke (h : Upholds p) (controller : Application.Controller) (streamId : UInt32)
    (command : Command) : Preserves p (Session.invoke controller streamId command) :=
  fun s hs => h.runProcedure (controller.invoke streamId command) _ (h.note s _ hs)

theorem connectCommand (h : Upholds p) (command : Command) :
    Preserves p (Session.connect command) := by
  intro s hs
  cases hc : s.connection.isSome with
  | true =>
    rw [connect_again hc]
    exact h.replyOnControl command _ s hs
  | false =>
    cases hi : ConnectionInformation.ofCommandObject? command.object with
    | none =>
      rw [connect_nowhere hc hi]
      exact h.perform .close s hs
    | some information =>
      cases ha : s.applications.get? information.app with
      | none =>
        rw [connect_unserved hc hi ha]
        exact h.perform .close s hs
      | some controller =>
        rw [connect_served hc hi ha]
        exact h.welcome _ _ _ _ (h.connect s _ hs)

theorem createStream (h : Upholds p) (command : Command) :
    Preserves p (Session.createStream command) := by
  intro s hs
  cases hc : s.connection.isNone with
  | true =>
    rw [Session.createStream, if_pos hc]
    exact h.replyOnControl command _ s hs
  | false =>
    rw [createStream_eq command hc]
    exact h.replyToCreateStream command _ _ (h.perform .createNetStream s hs)

theorem deleteStream (h : Upholds p) (command : Command) :
    Preserves p (Session.deleteStream command) := by
  intro s hs
  unfold Session.deleteStream
  split
  · exact hs
  · next id _ => exact h.perform (.deleteNetStream id) s hs

theorem callApp (h : Upholds p) (command : Command) : Preserves p (Session.callApp command) := by
  intro s hs
  cases hc : s.connection with
  | none =>
    cases hz : command.transactionId.isZero with
    | true =>
      rw [callApp_unanswered command hc hz]
      exact hs
    | false =>
      rw [callApp_unconnected command hc hz]
      exact h.replyOnControl command _ s hs
  | some app =>
    rw [callApp_eq command hc]
    exact h.replyToCall command _ _ (h.invoke app.controller _ command s hs)

theorem connectionCommand (h : Upholds p) (command : Command) :
    Preserves p (Session.connectionCommand command) := by
  unfold Session.connectionCommand
  split
  · exact h.connectCommand command
  · exact h.createStream command
  · exact h.deleteStream command
  · exact h.perform .close
  · exact h.callApp command

theorem callOnStream (h : Upholds p) (streamId : UInt32) (command : Command) :
    Preserves p (Session.callOnStream streamId command) := by
  intro s hs
  cases hc : s.connection with
  | none => simpa only [Session.callOnStream, hc] using hs
  | some app =>
    rw [callOnStream_eq streamId command hc]
    exact h.replyOnStream streamId _ _
      (h.invoke app.controller streamId command s hs)

theorem streamCommand (h : Upholds p) (streamId : UInt32) (command : Command) :
    Preserves p (Session.streamCommand streamId command) := by
  unfold Session.streamCommand
  split
  · exact h.perform (.deleteNetStream streamId)
  · exact h.perform (.deleteNetStream _)
  · exact h.callOnStream streamId command

theorem notify (h : Upholds p) (message : Inbound) : Preserves p (Session.notify message) := by
  intro s hs
  cases hc : s.connection with
  | none => simpa only [Session.notify, hc] using hs
  | some app =>
    rw [notify_eq message hc]
    exact h.runProcedure _ _ (h.note s _ hs)

theorem handle (h : Upholds p) (handler : Handler) (message : Inbound) :
    Preserves p (Session.handle handler message) := by
  obtain ⟨timestamp, streamId, message⟩ := message
  cases handler with
  | netConnection =>
    cases message with
    | command command => exact h.connectionCommand command
    | _ => exact fun _ => id
  | netStream =>
    cases message with
    | command command => exact h.streamCommand streamId command
    | _ => exact h.notify _
  | custom name take => exact fun s hs => h.runProcedure _ _ (h.note s _ hs)

/-- What is upheld is not done away with by any message. -/
theorem dispatch (h : Upholds p) (payload : Payload) {s : Session} (hs : p s) :
    p (s.dispatch payload) := by
  cases hr : s.route? payload with
  | none => simpa only [Session.dispatch, hr] using hs
  | some target =>
    simp only [Session.dispatch, hr]
    exact h.handle target.1 target.2 s hs

end Upholds

/-- What no operation, no reply, no call and no client that connects does away with, whatever is
queued. -/
structure Lasts (p : Session → Prop) : Prop where
  perform : ∀ operation, Preserves p fun s => s.perform operation
  requeue : ∀ s queue, p s → p { s with queue }
  note : ∀ s call, p s → p (s.note call)
  connect : ∀ s app, p s → p { s with connection := some app }

namespace Lasts

variable {p : Session → Prop}

theorem queueOnly (h : Lasts p) {x : Session → α × Session} (hx : QueueOnly x) : Preserves p x := by
  intro s hs
  obtain ⟨queue, hnext⟩ := hx s
  rw [hnext]
  exact h.requeue s queue hs

/-- What lasts is not done away with by any message. -/
theorem dispatch (h : Lasts p) (payload : Payload) {s : Session} (hs : p s) :
    p (s.dispatch payload) :=
  Upholds.dispatch ⟨h.perform, h.note, h.connect⟩ payload hs

end Lasts

/-- There is no way to open a session again. -/
theorem lasts_isClosed : Lasts fun s => s.isClosed = true where
  perform operation s := (operated_perform operation s).isClosed
  requeue _ _ := id
  note _ _ := id
  connect _ _ := id

end RtmpEndpoint.Session
