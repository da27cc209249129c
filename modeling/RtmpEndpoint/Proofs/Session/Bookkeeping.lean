import Mathlib
import RtmpEndpoint.Proofs.Session.Books
import RtmpEndpoint.Server.AcceptAll

/-!
# Bookkeeping

Whatever a session does keeps its books in agreement: it opens and closes NetStreams as a whole, and
everything else it does leaves the books alone. So they agree after every run of events.
-/

namespace RtmpEndpoint.Session

open Application (Procedure)

variable {α β : Type} {s : Session}

/-! ## Actions -/

/-- The books agree, and the client that was connected is connected as it was. -/
structure Books.Continue (earlier later : Books) : Prop where
  agree : later.Agree
  connection : ∀ app, earlier.connection = some app → later.connection = some app

theorem Books.Continue.refl {b : Books} (h : b.Agree) : b.Continue b := ⟨h, fun _ happ => happ⟩

theorem Books.Continue.trans {a b c : Books} (h : a.Continue b) (h' : b.Continue c) :
    a.Continue c :=
  ⟨h'.agree, fun app happ => h'.connection app (h.connection app happ)⟩

theorem continue_of_eq {t : Session} (hs : s.books.Agree) (h : t.books = s.books) :
    s.books.Continue t.books := by
  rw [h]
  exact .refl hs

/-- An action after which the books still agree. -/
def Orderly (x : Session → α × Session) : Prop :=
  ∀ s : Session, s.books.Agree → s.books.Continue (x s).2.books

/-- An action that writes nothing down. -/
def SparesBooks (x : Session → α × Session) : Prop := ∀ s, (x s).2.books = s.books

theorem SparesBooks.orderly {x : Session → α × Session} (h : SparesBooks x) : Orderly x :=
  fun s hs => continue_of_eq hs (h s)

theorem Orderly.andThen {x : Session → α × Session} {f : α → Session → β × Session}
    (hx : Orderly x) (hf : ∀ a, Orderly (f a)) : Orderly fun s => f (x s).1 (x s).2 := by
  intro s hs
  have hfirst := hx s hs
  exact hfirst.trans (hf _ _ hfirst.agree)

/-! ## Sending -/

/-- An action that changes nothing but the queue. -/
def QueueOnly (x : Session → α × Session) : Prop := ∀ s, ∃ queue, (x s).2 = { s with queue }

theorem QueueOnly.sparesBooks {x : Session → α × Session} (h : QueueOnly x) : SparesBooks x := by
  intro s
  obtain ⟨queue, hnext⟩ := h s
  rw [hnext]
  rfl

theorem queueOnly_bind {x : Action α} {f : α → Action β} (hx : QueueOnly x)
    (hf : ∀ a, QueueOnly (f a)) : QueueOnly (x >>= f) := by
  intro s
  have hfirst := hx s
  rw [Transition.bind_apply]
  cases hs : x s with
  | mk answer t =>
    rw [hs] at hfirst
    obtain ⟨queue, rfl⟩ := hfirst
    cases answer with
    | ok a => exact hf a _
    | error error => exact ⟨queue, rfl⟩

theorem queueOnly_pure (a : α) : QueueOnly (pure a : Action α) := fun s => ⟨s.queue, rfl⟩

theorem queueOnly_onQueue (x : Transition Flow.SendQueue Flow.SendError α) :
    QueueOnly (onQueue x) := by
  intro s
  unfold onQueue Transition.focus
  split <;> exact ⟨_, rfl⟩

theorem queueOnly_encode (message : Message) : QueueOnly (encode message) := by
  intro s
  unfold encode
  split <;> exact ⟨s.queue, rfl⟩

theorem queueOnly_sendMessage (csid streamId : UInt32) (timestamp : Timestamp)
    (message : Message) : QueueOnly (sendMessage csid streamId timestamp message) :=
  queueOnly_bind (queueOnly_encode message) fun _ => queueOnly_onQueue _

theorem queueOnly_setWriteChunkSize (size : UInt32) : QueueOnly (setWriteChunkSize size) :=
  queueOnly_bind (queueOnly_encode _) fun _ => queueOnly_onQueue _

theorem queueOnly_unawaited {x : Action Nat} (h : QueueOnly x) : QueueOnly (unawaited x) :=
  queueOnly_bind h fun _ => queueOnly_pure ()

theorem queueOnly_replyOnControl (request reply : Command) :
    QueueOnly (replyOnControl request reply) :=
  queueOnly_unawaited (queueOnly_sendMessage _ _ _ _)

theorem queueOnly_welcome (command : Command) (information : ConnectionInformation)
    (config : Config) : QueueOnly (welcome command information config) := by
  refine queueOnly_bind ?_ fun _ => queueOnly_replyOnControl _ _
  refine queueOnly_bind (queueOnly_sendMessage _ _ _ _) fun _ => ?_
  refine queueOnly_bind (queueOnly_sendMessage _ _ _ _) fun _ => ?_
  exact queueOnly_unawaited (queueOnly_setWriteChunkSize _)

theorem queueOnly_replyToCreateStream (command : Command) (created : Except SessionError NetStream) :
    QueueOnly (replyToCreateStream command created) := by
  cases created with
  | ok | error => exact queueOnly_replyOnControl command _

theorem queueOnly_replyToCall (command : Command) (reply : Option Command) :
    QueueOnly (replyToCall command reply) := by
  cases reply with
  | none => exact queueOnly_pure ()
  | some reply => exact queueOnly_replyOnControl command reply

theorem queueOnly_replyOnStream (streamId : UInt32) (reply : Option Command) :
    QueueOnly (replyOnStream streamId reply) := by
  intro s
  unfold replyOnStream
  split
  · exact ⟨s.queue, rfl⟩
  · split
    · exact ⟨s.queue, rfl⟩
    · exact queueOnly_unawaited (queueOnly_sendMessage _ _ _ _) s

/-! ## NetStreams -/

theorem orderly_createNetStream : Orderly createNetStream := by
  intro s hs
  cases hcsid : s.registry.chunkStreamIds.allocate with
  | none =>
    refine continue_of_eq hs ?_
    simp only [createNetStream, allocateChunkStream, Registry.allocateChunkStream, hcsid]
  | some handed =>
    obtain ⟨csid, ids⟩ := handed
    cases hid : ({ s.registry with chunkStreamIds := ids } : Registry MessageStream).add
        .forNetStream with
    | none =>
      have hnext : (createNetStream s).2.books = { s.books with
          registry := { s.registry with chunkStreamIds := ids.release csid } } := by
        simp only [createNetStream, allocateChunkStream, Registry.allocateChunkStream, hcsid,
          addMessageStream, hid, releaseChunkStream, Registry.releaseChunkStream, books]
      rw [hnext]
      exact ⟨hs.withdrawn hcsid, fun _ happ => happ⟩
    | some added =>
      obtain ⟨id, registry⟩ := added
      obtain ⟨hnew, hagree⟩ := hs.opened hcsid hid
      have hunused : s.netStreams.get? id = none := hnew
      have hnext : (createNetStream s).2.books = { s.books with
          registry, netStreams := s.netStreams.insert id ⟨id, csid⟩ } := by
        simp only [createNetStream, allocateChunkStream, Registry.allocateChunkStream, hcsid,
          addMessageStream, hid, putNetStream, hunused, books]
      rw [hnext]
      exact ⟨hagree, fun _ happ => happ⟩

theorem orderly_deleteNetStream (id : UInt32) : Orderly (deleteNetStream id) := by
  intro s hs
  cases hid : s.netStreams.get? id with
  | none =>
    refine continue_of_eq hs ?_
    simp only [deleteNetStream, hid]
  | some stream =>
    have hnext : (deleteNetStream id s).2.books = { s.books with
        registry := (s.registry.remove id).2.releaseChunkStream stream.chunkStreamId
        netStreams := s.netStreams.erase id } := by
      simp only [deleteNetStream, hid, removeMessageStream, releaseChunkStream, books]
    rw [hnext]
    exact ⟨hs.closed hid, fun _ happ => happ⟩

/-! ## Procedures -/

theorem orderly_perform {operation : Application.Operation} (h : operation.Confined) :
    Orderly fun s => s.perform operation := by
  cases operation with
  | createNetStream => exact orderly_createNetStream
  | deleteNetStream id => exact orderly_deleteNetStream id
  | send | sendMessage | sendControl =>
    exact (queueOnly_unawaited (queueOnly_sendMessage _ _ _ _)).sparesBooks.orderly
  | setWriteChunkSize size =>
    exact (queueOnly_unawaited (queueOnly_setWriteChunkSize size)).sparesBooks.orderly
  | createMessageStream | removeMessageStream | allocateChunkStream | releaseChunkStream =>
    exact h.elim
  | connectionId | isClosed | information | unacknowledgedBytes | writeChunkSize
  | messageStreamIds | liveChunkStreams | close | netStream =>
    exact SparesBooks.orderly fun _ => rfl

/-- One confined operation after another. -/
theorem orderly_runProcedure {procedure : Procedure α} (h : procedure.Confined) :
    Orderly (runProcedure procedure) := by
  induction procedure with
  | done value => exact SparesBooks.orderly fun _ => rfl
  | perform operation next ih =>
    exact (orderly_perform h.1).andThen fun answer => ih answer (h.2 answer)

theorem orderly_note {x : Session → α × Session} (h : Orderly x) (call : Application.Call) :
    Orderly fun s => x (s.note call) :=
  fun s hs => h (s.note call) hs

theorem orderly_invoke {controller : Application.Controller} (h : controller.Confined)
    (streamId : UInt32) (command : Command) : Orderly (invoke controller streamId command) :=
  (orderly_note (orderly_runProcedure (h.invoke streamId command)) _).andThen
    (f := fun outcome s => (outcome.reply? command, s)) fun _ => SparesBooks.orderly fun _ => rfl

/-! ## Commands and messages -/

theorem orderly_connect (command : Command) : Orderly (connect command) := by
  intro s hs
  cases hc : s.connection.isSome with
  | true =>
    rw [connect_again hc]
    exact (queueOnly_replyOnControl command _).sparesBooks.orderly s hs
  | false =>
    cases hi : ConnectionInformation.ofCommandObject? command.object with
    | none =>
      rw [connect_nowhere hc hi]
      exact .refl hs
    | some information =>
      cases ha : s.applications.get? information.app with
      | none =>
        rw [connect_unserved hc hi ha]
        exact .refl hs
      | some controller =>
        rw [connect_served hc hi ha, (queueOnly_welcome _ _ _).sparesBooks]
        have hnone : s.connection = none := by simpa using hc
        refine ⟨{ hs with connected := ?_ }, ?_⟩
        · intro app happ
          cases happ
          exact hs.served.get? ha
        · intro app happ
          cases hnone.symm.trans happ

theorem orderly_createStream (command : Command) : Orderly (createStream command) := by
  intro s hs
  cases hc : s.connection.isNone with
  | true =>
    rw [createStream, if_pos hc]
    exact (queueOnly_replyOnControl command _).sparesBooks.orderly s hs
  | false =>
    rw [createStream_eq command hc]
    exact orderly_createNetStream.andThen
      (fun _ => (queueOnly_replyToCreateStream command _).sparesBooks.orderly) s hs

theorem orderly_deleteStream (command : Command) : Orderly (deleteStream command) := by
  intro s hs
  unfold deleteStream
  split
  · exact .refl hs
  · next id hid => exact orderly_deleteNetStream id s hs

theorem orderly_callApp (command : Command) : Orderly (callApp command) := by
  intro s hs
  cases hc : s.connection with
  | none =>
    cases hz : command.transactionId.isZero with
    | true =>
      rw [callApp_unanswered command hc hz]
      exact .refl hs
    | false =>
      rw [callApp_unconnected command hc hz]
      exact (queueOnly_replyOnControl command _).sparesBooks.orderly s hs
  | some app =>
    rw [callApp_eq command hc]
    exact (orderly_invoke (hs.connected app hc) _ command).andThen
      (fun _ => (queueOnly_replyToCall command _).sparesBooks.orderly) s hs

theorem orderly_connectionCommand (command : Command) : Orderly (connectionCommand command) := by
  unfold connectionCommand
  split
  · exact orderly_connect command
  · exact orderly_createStream command
  · exact orderly_deleteStream command
  · exact SparesBooks.orderly fun _ => rfl
  · exact orderly_callApp command

theorem orderly_notify (message : Inbound) : Orderly (notify message) := by
  intro s hs
  cases hc : s.connection with
  | none =>
    refine continue_of_eq hs ?_
    simp only [notify, hc]
  | some app =>
    rw [notify_eq message hc]
    have hconfined := (hs.connected app hc).onStreamMessage message.streamId message
    exact orderly_note (orderly_runProcedure hconfined) _ s hs

theorem orderly_callOnStream (streamId : UInt32) (command : Command) :
    Orderly (callOnStream streamId command) := by
  intro s hs
  cases hc : s.connection with
  | none =>
    refine continue_of_eq hs ?_
    simp only [callOnStream, hc]
  | some app =>
    rw [callOnStream_eq streamId command hc]
    exact (orderly_invoke (hs.connected app hc) streamId command).andThen
      (fun _ => (queueOnly_replyOnStream streamId _).sparesBooks.orderly) s hs

theorem orderly_streamCommand (streamId : UInt32) (command : Command) :
    Orderly (streamCommand streamId command) := by
  unfold streamCommand
  split
  · exact orderly_deleteNetStream streamId
  · exact orderly_deleteNetStream _
  · exact orderly_callOnStream streamId command

/-- No message goes to a handler that an application has registered. -/
theorem route?_handler (hs : s.books.Agree) {payload : Payload} {handler : Handler}
    {message : Inbound} (h : s.route? payload = some (handler, message)) :
    handler = .netConnection ∨ handler = .netStream := by
  unfold route? at h
  simp only [Option.bind_eq_bind, Option.bind_eq_some_iff] at h
  obtain ⟨stream, hstream, found, hfound, h⟩ := h
  have hhandler : found = handler := by
    split at h
    · cases h
      rfl
    · cases h
  rw [hhandler] at hfound
  by_cases hid : payload.streamId = controlMessageStreamId
  · rw [hid] at hstream
    cases hs.streams.control.symm.trans hstream
    exact .inl (MessageStream.handler?_control hfound)
  · have hmap := (hs.streams.messageStream _ hid).symm.trans hstream
    obtain ⟨opened, -, rfl⟩ := Option.map_eq_some_iff.mp hmap
    exact .inr (MessageStream.handler?_forNetStream hfound)

theorem continue_dispatch (payload : Payload) (hs : s.books.Agree) :
    s.books.Continue (s.dispatch payload).books := by
  cases hr : s.route? payload with
  | none =>
    refine continue_of_eq hs ?_
    simp only [dispatch, hr]
  | some target =>
    obtain ⟨handler, timestamp, streamId, message⟩ := target
    have hnext : s.dispatch payload = (handle handler ⟨timestamp, streamId, message⟩ s).2 := by
      simp only [dispatch, hr]
    rw [hnext]
    rcases route?_handler hs hr with rfl | rfl
    · cases message with
      | command command => exact orderly_connectionCommand command s hs
      | _ => exact .refl hs
    · cases message with
      | command command => exact orderly_streamCommand streamId command s hs
      | _ => exact orderly_notify _ s hs

/-! ## Runs -/

/-- What drives a session: a payload comes in, or its owner opens or closes a NetStream. -/
inductive Event where
  | incoming (payload : Payload)
  | opening
  | closing (id : UInt32)

def Event.take (s : Session) : Event → Session
  | incoming payload => s.dispatch payload
  | opening => (createNetStream s).2
  | closing id => (s.deleteNetStream id).2

/-- The events one after the other. -/
def drive (events : List Event) (s : Session) : Session := events.foldl Event.take s

theorem continue_take (event : Event) (hs : s.books.Agree) :
    s.books.Continue (event.take s).books := by
  cases event with
  | incoming payload => exact continue_dispatch payload hs
  | opening => exact orderly_createNetStream s hs
  | closing id => exact orderly_deleteNetStream id s hs

theorem continue_drive (events : List Event) (hs : s.books.Agree) :
    s.books.Continue (drive events s).books := by
  induction events generalizing s with
  | nil => exact .refl hs
  | cons event events ih =>
    have hfirst := continue_take event hs
    exact hfirst.trans (ih hfirst.agree)

/-- Whatever comes in and whatever the applications do with NetStreams, a session has message
streams for its open NetStreams and for control only, and chunk stream ids for its open NetStreams
only, one for each. All messages of an open NetStream are taken, and a client that is connected
stays the one that it said it was. -/
theorem ids_of_open_streams (connectionId : Nat) (config : Config) (queue : Flow.SendQueue)
    {applications : Application.Applications} (h : applications.Confined)
    (events later : List Event) :
    let s := drive events { connectionId, config, applications, queue }
    let csids := s.netStreams.values.map (·.chunkStreamId)
    (∀ id, id ∈ s.registry.streams.ids ↔
        id = controlMessageStreamId ∨ id ∈ s.netStreams.values.map (·.id)) ∧
      (∀ csid, s.registry.chunkStreamIds.isLive csid = true ↔ csid ∈ csids) ∧
      s.registry.chunkStreamIds.live = csids.length ∧ csids.Nodup ∧
      (∀ csid ∈ csids, 3 ≤ csid.toNat ∧ csid.toNat ≤ 65599) ∧
      (∀ stream ∈ s.netStreams.values, s.netStream? stream.id = some stream ∧
        ∃ messages, s.messageStream? stream.id = some messages ∧
          ∀ tag ∈ MessageStream.netStreamTags, messages.handler? tag = some .netStream) ∧
      ∀ information, s.information? = some information →
        (drive later s).information? = some information := by
  intro s csids
  have hnew : ({ connectionId, config, applications, queue } : Session).books.Agree :=
    Books.agree_new h
  have hs : s.books.Agree := (continue_drive events hnew).agree
  have hlive : ∀ csid, s.registry.chunkStreamIds.isLive csid = true ↔ csid ∈ csids :=
    hs.chunkIds.live_iff
  refine ⟨hs.streams.mem_ids_iff, hlive, ?_, hs.chunkIds.nodup, ?_,
    fun stream => hs.streams.takes_all, ?_⟩
  · exact ChunkStreamIds.live_eq hs.chunkIds.nodup fun csid => (hlive csid).symm
  · intro csid hmem
    exact ChunkStreamIds.inRange_of_isLive ((hlive csid).mpr hmem)
  · intro information hinformation
    obtain ⟨app, happ, rfl⟩ := Option.map_eq_some_iff.mp hinformation
    have hkept : (drive later s).connection = some app :=
      (continue_drive later hs).connection app happ
    rw [information?, hkept]
    rfl

/-! ## The controller of the server -/

open Server (acceptAll)

theorem confined_sendStatus (streamId : UInt32) (code description : String) :
    (Server.sendStatus streamId code description).Confined := by
  refine ⟨trivial, fun stream => ?_⟩
  cases stream with
  | none => trivial
  | some stream =>
    refine ⟨trivial, fun sent => ?_⟩
    cases sent with
    | error error => trivial
    | ok => exact ⟨trivial, fun _ => trivial⟩

/-- The server only sends on streams that are open. -/
theorem confined_acceptAll : acceptAll.Confined where
  invoke streamId command := by
    simp only [acceptAll, Server.invoke]
    split
    · exact (confined_sendStatus ..).bind fun _ => trivial
    · exact (confined_sendStatus ..).bind fun _ => trivial
    · trivial
  onStreamMessage _ _ := trivial

/-- The app named live. -/
def liveApp : Application.Applications := ({} : Application.Applications).register "live" acceptAll

/-- `connect` to live and `createStream`. -/
def connectAndCreate : List Event :=
  [.incoming ⟨.zero, .amf0Command, 0,
      [2, 0, 7, 99, 111, 110, 110, 101, 99, 116, 0, 63, 240, 0, 0, 0, 0, 0, 0,
        3, 0, 3, 97, 112, 112, 2, 0, 4, 108, 105, 118, 101, 0, 0, 9]⟩,
    .incoming ⟨.zero, .amf0Command, 0,
      [2, 0, 12, 99, 114, 101, 97, 116, 101, 83, 116, 114, 101, 97, 109,
        0, 64, 0, 0, 0, 0, 0, 0, 0, 5]⟩]

/-- A stream is created, another one opened, the first one closed, and one more opened. -/
theorem ids_of_open_streams_connectAndCreate :
    liveApp.Confined ∧
      let s := drive (connectAndCreate ++ [.opening, .closing 1, .opening])
        { applications := liveApp }
      s.netStreams.values = [⟨1, 5⟩, ⟨2, 4⟩] ∧
        (∀ id, id ∈ s.registry.streams.ids ↔ id = 0 ∨ id ∈ [1, 2]) ∧
        ∀ csid, s.registry.chunkStreamIds.isLive csid = true ↔ csid ∈ [5, 4] := by
  have hconfined : liveApp.Confined := by
    intro entry hmem
    rw [List.mem_singleton.mp hmem]
    exact confined_acceptAll
  have hvalues : (drive (connectAndCreate ++ [.opening, .closing 1, .opening])
      { applications := liveApp }).netStreams.values = [⟨1, 5⟩, ⟨2, 4⟩] := by cbv
  obtain ⟨hstreams, hlive, -⟩ := ids_of_open_streams 1 {} {} hconfined
    (connectAndCreate ++ [.opening, .closing 1, .opening]) []
  rw [hvalues] at hstreams hlive
  exact ⟨hconfined, hvalues, hstreams, hlive⟩

end RtmpEndpoint.Session
