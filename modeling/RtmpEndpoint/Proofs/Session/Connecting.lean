import Mathlib
import RtmpEndpoint.Proofs.Session.Bookkeeping
import RtmpEndpoint.Proofs.Session.Oblivious
import RtmpEndpoint.Proofs.Session.Peer

/-!
# What comes of a `connect`

A client that is served is connected first, and then four messages are sent to it one after the
other. Each of them can be refused, and what was done before stays done. So a chunk size that no
peer can be told of leaves a client that is connected and has got two announcements and no reply.
-/

namespace RtmpEndpoint.Session

open Chunk (Size maxMessageLength)
open RtmpEndpoint.Flow (SendQueue)
open RtmpEndpoint.Flow.SendQueue (Entry)

variable {s : Session} {payload : Payload} {message : Message} {config : Config}
  {command : Command} {information : ConnectionInformation}

/-! ## Messages on the control streams -/

/-- The payload carries the message on message stream 0. -/
structure Carries (payload : Payload) (message : Message) : Prop where
  encoded : Message.encode message = .ok (payload.tag, payload.data)
  timestamp : payload.timestamp = .zero
  streamId : payload.streamId = controlMessageStreamId

theorem data_of_carries {body : Bytes} (h : Carries payload message)
    (hbody : Message.encodeBody message = .ok body) : payload.data = body := by
  have hencoded := h.encoded
  rw [Message.encode, hbody] at hencoded
  exact (Prod.mk.inj (Except.ok.inj hencoded)).2.symm

theorem sendControl_eq (h : Carries payload message) (s : Session) :
    sendControl message s = onQueue (SendQueue.send Chunk.controlStreamId payload) s := by
  obtain ⟨timestamp, tag, streamId, data⟩ := payload
  obtain ⟨hencoded, rfl, rfl⟩ := h
  have hencode : encode message s = (.ok (tag, data), s) := by rw [encode, hencoded]
  rw [sendControl, sendMessage, Transition.bind_ok hencode]

theorem fits_control (h : payload.data.length ≤ maxMessageLength) :
    Chunk.Splitter.Fits Chunk.controlStreamId payload := ⟨⟨by decide, by decide⟩, h⟩

/-- The session with more in its queue. -/
def sent (log : List Entry) (s : Session) : Session := { s with queue := s.queue.replay log }

theorem sent_append (log more : List Entry) (s : Session) :
    s.sent (log ++ more) = (s.sent log).sent more := by
  simp only [sent, SendQueue.replay_append]

theorem isOpen_sent (log : List Entry) (s : Session) :
    (s.sent log).queue.isOpen = s.queue.isOpen := SendQueue.isOpen_replay s.queue log

theorem sendControl_fits (h : Carries payload message)
    (hfits : payload.data.length ≤ maxMessageLength) (hopen : s.queue.isOpen = true) :
    sendControl message s
      = (.ok s.queue.messages, s.sent [.message Chunk.controlStreamId payload]) := by
  rw [sendControl_eq h, onQueue, Transition.focus,
    SendQueue.send_of_fits (fits_control hfits) hopen]
  rfl

/-- A message that is too long is refused and leaves no trace. -/
theorem sendControl_tooLong (h : Carries payload message)
    (hlong : ¬ payload.data.length ≤ maxMessageLength) (s : Session) :
    ∃ error, sendControl message s = (.error error, s) := by
  have hfits : ¬ Chunk.Splitter.Fits Chunk.controlStreamId payload := fun hf => hlong hf.2
  obtain ⟨error, hsend⟩ := SendQueue.send_of_not_fits hfits
  refine ⟨.send (.split error), ?_⟩
  rw [sendControl_eq h, onQueue, Transition.focus, hsend s.queue]

/-! ## The welcome -/

/-- The reply to a `connect`, in the encoding of the request. -/
def replyTo (config : Config) (command : Command) (information : ConnectionInformation) : Command :=
  ⟨command.encoding, "_result", command.transactionId,
    .object [("capabilities", .number (.ofNat 31)), ("fmsVer", .text config.fmsVersion),
      ("mode", .number (.ofNat 1))],
    [.object [("code", .text "NetConnection.Connect.Success"),
      ("description", .text "Connection succeeded."), ("level", .text "status"),
      ("objectEncoding", .number information.objectEncoding)]]⟩

theorem connectResult_eq (config : Config) (command : Command)
    (information : ConnectionInformation) :
    { connectResult config information.objectEncoding command.transactionId with
      encoding := command.encoding } = replyTo config command information := rfl

/-- What a client that connects is to get, each message with the payload that carries it. -/
structure Welcome (config : Config) (command : Command) (information : ConnectionInformation) where
  window : Payload
  bandwidth : Payload
  chunkSize : Payload
  reply : Payload
  window_carries : Carries window (.windowAcknowledgementSize config.windowAckSize)
  bandwidth_carries : Carries bandwidth (.setPeerBandwidth config.peerBandwidth .dynamic)
  chunkSize_carries : Carries chunkSize (.setChunkSize config.chunkSize)
  reply_carries : Carries reply (.command (replyTo config command information))

def connectReply (config : Config) (command : Command) (information : ConnectionInformation) :
    Payload :=
  let reply := replyTo config command information
  ⟨.zero, (Message.command reply).tag, controlMessageStreamId,
    Message.formatSelector command.encoding
      ++ Amf0.Value.prependAll (Message.commandValues reply) []⟩

theorem carries_connectReply (config : Config) (command : Command)
    (information : ConnectionInformation) :
    Carries (connectReply config command information)
      (.command (replyTo config command information)) where
  encoded := by
    have hroom : Amf0.Value.faultOfAll?
      (Message.commandValues (replyTo config command information)) = none := rfl
    simp only [Message.encode, Message.encodeBody, Message.encodeValues, Amf0.Value.encodeAll,
      hroom]
    rfl
  timestamp := rfl
  streamId := rfl

def Welcome.of (config : Config) (command : Command) (information : ConnectionInformation) :
    Welcome config command information where
  window := ⟨.zero, .windowAcknowledgementSize, controlMessageStreamId,
    Bytes.ofUInt32 config.windowAckSize⟩
  bandwidth := ⟨.zero, .setPeerBandwidth, controlMessageStreamId,
    Bytes.ofUInt32 config.peerBandwidth ++ [Message.limitCode .dynamic]⟩
  chunkSize := announcement config.chunkSize
  reply := connectReply config command information
  window_carries := ⟨rfl, rfl, rfl⟩
  bandwidth_carries := ⟨rfl, rfl, rfl⟩
  chunkSize_carries := ⟨rfl, rfl, rfl⟩
  reply_carries := carries_connectReply config command information

theorem length_connectReply (config : Config) (command : Command)
    (information : ConnectionInformation) :
    (connectReply config command information).data.length
      = 189 + (Message.formatSelector command.encoding).length
        + (Amf0.Value.encodeText config.fmsVersion).length := by
  rw [connectReply]
  simp only [replyTo, Message.commandValues, Amf0.Value.prependAll, Amf0.Value.prepend,
    Amf0.Value.prependProperties, List.length_append, List.length_cons, List.length_nil]
  have htexts : (Amf0.Value.encodeText "_result").length = 10 ∧
      (Amf0.Value.encodeText "NetConnection.Connect.Success").length = 32 ∧
      (Amf0.Value.encodeText "Connection succeeded.").length = 24 ∧
      (Amf0.Value.encodeText "status").length = 9 := ⟨rfl, rfl, rfl, rfl⟩
  have hnames : (Amf0.Value.encodeName "capabilities").length = 14 ∧
      (Amf0.Value.encodeName "fmsVer").length = 8 ∧ (Amf0.Value.encodeName "mode").length = 6 ∧
      (Amf0.Value.encodeName "code").length = 6 ∧
      (Amf0.Value.encodeName "description").length = 13 ∧
      (Amf0.Value.encodeName "level").length = 7 ∧
      (Amf0.Value.encodeName "objectEncoding").length = 16 := ⟨rfl, rfl, rfl, rfl, rfl, rfl, rfl⟩
  have hend : Amf0.Value.propertiesEnd.length = 3 := rfl
  simp only [Bytes.ofUInt64, Bytes.length_ofNat]
  omega

/-- Only the name of the server can make the reply too long. -/
theorem connectReply_fits_iff (config : Config) (command : Command)
    (information : ConnectionInformation) :
    (connectReply config command information).data.length ≤ maxMessageLength ↔
      (Utf8.encode config.fmsVersion).length + (Message.formatSelector command.encoding).length
        ≤ 16777021 := by
  have hselector : (Message.formatSelector command.encoding).length ≤ 1 := by
    cases command.encoding <;> decide
  have htext : (Amf0.Value.encodeText config.fmsVersion).length
      = (if 65535 < (Utf8.encode config.fmsVersion).length then 5 else 3)
        + (Utf8.encode config.fmsVersion).length := by
    unfold Amf0.Value.encodeText
    dsimp only
    split <;> simp only [List.length_cons, List.length_append, Bytes.length_ofNat] <;> omega
  rw [length_connectReply, htext, maxMessageLength]
  split <;> omega

/-! ## Sending the welcome -/

theorem unawaited_ok {x : Action Nat} {n : Nat} {t : Session} (h : x s = (.ok n, t)) :
    unawaited x s = (.ok (), t) :=
  Transition.bind_ok h

theorem unawaited_error {x : Action Nat} {error : SessionError} {t : Session}
    (h : x s = (.error error, t)) : unawaited x s = (.error error, t) :=
  Transition.bind_error h

theorem setWriteChunkSize_eq {size : UInt32} (h : Carries payload (.setChunkSize size))
    (s : Session) :
    setWriteChunkSize size s = onQueue (SendQueue.setChunkSize size payload) s := by
  obtain ⟨timestamp, tag, streamId, data⟩ := payload
  obtain ⟨hencoded, rfl, rfl⟩ := h
  have hencode : encode (.setChunkSize size) s = (.ok (tag, data), s) := by rw [encode, hencoded]
  rw [setWriteChunkSize, Transition.bind_ok hencode]

namespace Welcome

variable {bound : Size}

/-- What is sent in any case. -/
def announcements (w : Welcome config command information) : List Entry :=
  [.message Chunk.controlStreamId w.window, .message Chunk.controlStreamId w.bandwidth]

/-- All of the welcome. -/
def log (bound : Size) (w : Welcome config command information) : List Entry :=
  w.announcements ++ [.resized bound w.chunkSize] ++ [.message Chunk.controlStreamId w.reply]

theorem window_fits (w : Welcome config command information) :
    w.window.data.length ≤ maxMessageLength := by
  rw [data_of_carries w.window_carries rfl]
  simp [Bytes.ofUInt32, maxMessageLength]

theorem bandwidth_fits (w : Welcome config command information) :
    w.bandwidth.data.length ≤ maxMessageLength := by
  rw [data_of_carries w.bandwidth_carries rfl]
  simp [Bytes.ofUInt32, maxMessageLength]

theorem chunkSize_fits (w : Welcome config command information) :
    Chunk.Splitter.Fits Chunk.controlStreamId w.chunkSize := by
  apply fits_control
  rw [data_of_carries w.chunkSize_carries rfl]
  simp [Bytes.ofUInt32, maxMessageLength]

/-- The first two messages cannot be refused. -/
theorem announce_eq (w : Welcome config command information) (hopen : s.queue.isOpen = true) :
    announce config s = unawaited (setWriteChunkSize config.chunkSize) (s.sent w.announcements) := by
  have hwindow := sendControl_fits w.window_carries w.window_fits hopen
  have hbandwidth := sendControl_fits w.bandwidth_carries w.bandwidth_fits
    (s := s.sent [.message Chunk.controlStreamId w.window]) hopen
  rw [announce, Transition.bind_ok hwindow, Transition.bind_ok hbandwidth]
  rfl

theorem announce_accepted (w : Welcome config command information)
    (hopen : s.queue.isOpen = true) (hsize : Size.ofNat? config.chunkSize.toNat = some bound) :
    announce config s = (.ok (), s.sent (w.announcements ++ [.resized bound w.chunkSize])) := by
  have hset := SendQueue.setChunkSize_of_fits w.chunkSize_fits hsize
    (q := (s.sent w.announcements).queue) (by rw [isOpen_sent, hopen])
  have hrun : setWriteChunkSize config.chunkSize (s.sent w.announcements)
      = (.ok (s.sent w.announcements).queue.messages,
        (s.sent w.announcements).sent [.resized bound w.chunkSize]) := by
    rw [setWriteChunkSize_eq w.chunkSize_carries, onQueue, Transition.focus, hset]
    rfl
  rw [w.announce_eq hopen, sent_append, unawaited_ok hrun]

theorem announce_refused (w : Welcome config command information)
    (hopen : s.queue.isOpen = true) (hsize : Size.ofNat? config.chunkSize.toNat = none) :
    announce config s = (.error (.send (.split (.invalidMaxChunkSize config.chunkSize))),
      s.sent (w.announcements ++ [.refused w.chunkSize])) := by
  have hset := (s.sent w.announcements).queue.setChunkSize_of_none w.chunkSize_fits hsize
  have hrun : setWriteChunkSize config.chunkSize (s.sent w.announcements)
      = (.error (.send (.split (.invalidMaxChunkSize config.chunkSize))),
        (s.sent w.announcements).sent [.refused w.chunkSize]) := by
    rw [setWriteChunkSize_eq w.chunkSize_carries, onQueue, Transition.focus, hset]
    rfl
  rw [w.announce_eq hopen, sent_append, unawaited_error hrun]

/-! Then comes the reply, unless the chunk size was refused. -/

theorem welcome_eq (command : Command) (information : ConnectionInformation) (config : Config) :
    welcome command information config = (do
      announce config
      unawaited (sendControl (.command (replyTo config command information)))) := by
  rw [← connectResult_eq]
  rfl

theorem welcome_refusedSize (w : Welcome config command information)
    (hopen : s.queue.isOpen = true) (hsize : Size.ofNat? config.chunkSize.toNat = none) :
    (welcome command information config s).2
      = s.sent (w.announcements ++ [.refused w.chunkSize]) := by
  rw [welcome_eq, Transition.bind_error (w.announce_refused hopen hsize)]

theorem welcome_tooLong (w : Welcome config command information)
    (hopen : s.queue.isOpen = true) (hsize : Size.ofNat? config.chunkSize.toNat = some bound)
    (hlong : ¬ w.reply.data.length ≤ maxMessageLength) :
    (welcome command information config s).2
      = s.sent (w.announcements ++ [.resized bound w.chunkSize]) := by
  obtain ⟨error, hreply⟩ := sendControl_tooLong w.reply_carries hlong
    (s.sent (w.announcements ++ [.resized bound w.chunkSize]))
  rw [welcome_eq, Transition.bind_ok (w.announce_accepted hopen hsize), unawaited_error hreply]

theorem welcome_whole (w : Welcome config command information)
    (hopen : s.queue.isOpen = true) (hsize : Size.ofNat? config.chunkSize.toNat = some bound)
    (hfits : w.reply.data.length ≤ maxMessageLength) :
    (welcome command information config s).2 = s.sent (w.log bound) := by
  have hstill : (s.sent (w.announcements ++ [.resized bound w.chunkSize])).queue.isOpen = true := by
    rw [isOpen_sent, hopen]
  have hreply := sendControl_fits w.reply_carries hfits hstill
  rw [log, sent_append, welcome_eq, Transition.bind_ok (w.announce_accepted hopen hsize),
    unawaited_ok hreply]

end Welcome

/-! ## A `connect` -/

/-- The app that a `connect` asks for, if it is served. -/
def servedApp? (s : Session) (command : Command) : Option ConnectedApp := do
  let information ← ConnectionInformation.ofCommandObject? command.object
  let controller ← s.applications.get? information.app
  return ⟨information, controller⟩

/-- The session of a client that is connected. -/
def connectedTo (app : ConnectedApp) (s : Session) : Session := { s with connection := some app }

theorem connect_turnedAway (hnew : s.connection = none) (h : s.servedApp? command = none) :
    connect command s = (.ok (), s.close) := by
  have hnot : s.connection.isSome = false := by rw [hnew]; rfl
  cases hi : ConnectionInformation.ofCommandObject? command.object with
  | none => exact connect_nowhere hnot hi
  | some information =>
    simp only [servedApp?, hi, Option.bind_eq_bind, Option.bind_some] at h
    cases ha : s.applications.get? information.app with
    | none => exact connect_unserved hnot hi ha
    | some controller =>
      rw [ha] at h
      cases h

theorem connect_eq_welcome {app : ConnectedApp} (hnew : s.connection = none)
    (h : s.servedApp? command = some app) :
    connect command s = welcome command app.information s.config (s.connectedTo app) := by
  have hnot : s.connection.isSome = false := by rw [hnew]; rfl
  simp only [servedApp?, Option.bind_eq_bind, Option.bind_eq_some_iff, Option.pure_def,
    Option.some.injEq] at h
  obtain ⟨information, hi, controller, ha, rfl⟩ := h
  exact connect_served hnot hi ha

theorem dispatch_connect {inbound : Inbound}
    (hroute : s.route? payload = some (.netConnection, inbound))
    (hcommand : inbound.message = .command command) (hname : command.name = "connect") :
    s.dispatch payload = (connect command s).2 := by
  simp only [dispatch, hroute, handle, hcommand, connectionCommand, hname]

/-- What has come of the first `connect` of a client that is served. It has got its welcome up to
the message that was refused, if one was. -/
structure Served (s : Session) (command : Command) (app : ConnectedApp) (t : Session) : Prop where
  refusedSize (w : Welcome s.config command app.information) :
    ¬ (0 < s.config.chunkSize.toNat ∧ s.config.chunkSize.toNat ≤ 0x7fffffff) →
      t = (s.connectedTo app).sent (w.announcements ++ [.refused w.chunkSize])
  tooLong (w : Welcome s.config command app.information) (bound : Size) :
    bound.value = s.config.chunkSize.toNat → ¬ w.reply.data.length ≤ maxMessageLength →
      t = (s.connectedTo app).sent (w.announcements ++ [.resized bound w.chunkSize])
  whole (w : Welcome s.config command app.information) (bound : Size) :
    bound.value = s.config.chunkSize.toNat → w.reply.data.length ≤ maxMessageLength →
      t = (s.connectedTo app).sent (w.log bound)

theorem ofNat?_of_value {bound : Size} {n : Nat} (h : bound.value = n) :
    Size.ofNat? n = some bound := by
  rw [← h]
  exact dif_pos ⟨bound.pos, bound.le⟩

theorem served_connect {app : ConnectedApp} (hnew : s.connection = none)
    (hopen : s.queue.isOpen = true) (happ : s.servedApp? command = some app) :
    Served s command app (connect command s).2 := by
  rw [connect_eq_welcome hnew happ]
  constructor
  · intro w hsize
    exact w.welcome_refusedSize hopen (dif_neg hsize)
  · intro w bound hbound hlong
    exact w.welcome_tooLong hopen (ofNat?_of_value hbound) hlong
  · intro w bound hbound hfits
    exact w.welcome_whole hopen (ofNat?_of_value hbound) hfits

/-- The client is connected, whether it could be told so or not. -/
theorem Served.connection {app : ConnectedApp} {t : Session} (h : Served s command app t) :
    t.connection = some app := by
  have w := Welcome.of s.config command app.information
  by_cases hsize : 0 < s.config.chunkSize.toNat ∧ s.config.chunkSize.toNat ≤ 0x7fffffff
  · by_cases hfits : w.reply.data.length ≤ maxMessageLength
    · rw [h.whole w ⟨_, hsize.1, hsize.2⟩ rfl hfits]
      rfl
    · rw [h.tooLong w ⟨_, hsize.1, hsize.2⟩ rfl hfits]
      rfl
  · rw [h.refusedSize w hsize]
    rfl

/-! ## All or nothing -/

/-- A `connect` has come to nothing, or to everything: the client is connected to the app that it
asked for, its welcome is in the queue in order, and the chunk size is the configured one. -/
def Whole (s : Session) (command : Command) (t : Session) : Prop :=
  (t.connection = none ∧ t.queue.chunks = s.queue.chunks) ∨
    ∃ app bound, s.servedApp? command = some app ∧ t.connection = some app ∧
      t.queue = s.queue.replay ((Welcome.of s.config command app.information).log bound) ∧
      t.queue.chunkSize = s.config.chunkSize.toNat

theorem Whole.size_inRange {t : Session} (h : Whole s command t) (hc : t.connection ≠ none) :
    0 < s.config.chunkSize.toNat ∧ s.config.chunkSize.toNat ≤ 0x7fffffff := by
  rcases h with ⟨hnone, -⟩ | ⟨app, bound, -, -, -, hsize⟩
  · exact absurd hnone hc
  · rw [← hsize]
    exact ⟨t.queue.splitter.maxSize.pos, t.queue.splitter.maxSize.le⟩

/-- Four messages were queued for a client that has got its welcome. -/
theorem Whole.messages {t : Session} (h : Whole s command t) (hc : t.connection ≠ none) :
    t.queue.messages = s.queue.messages + 4 := by
  rcases h with ⟨hnone, -⟩ | ⟨app, bound, -, -, hqueue, -⟩
  · exact absurd hnone hc
  · rw [hqueue]
    rfl

/-- What comes of the first `connect`. A client that is not served is turned away. One that is
served is connected and gets its welcome, as far as that goes. So a `connect` is all or nothing if
the chunk size can be announced and the reply is not too long, and only then. -/
theorem connect_outcome {inbound : Inbound}
    (hroute : s.route? payload = some (.netConnection, inbound))
    (hcommand : inbound.message = .command command) (hname : command.name = "connect")
    (hnew : s.connection = none) (hopen : s.queue.isOpen = true) :
    let t := s.dispatch payload
    let size := s.config.chunkSize.toNat
    (s.servedApp? command = none → t = s.close) ∧
    (∀ app, s.servedApp? command = some app → Served s command app t) ∧
    (Whole s command t ↔ ∀ app, s.servedApp? command = some app →
      (0 < size ∧ size ≤ 0x7fffffff) ∧
        (Welcome.of s.config command app.information).reply.data.length ≤ maxMessageLength) := by
  intro t size
  have hdispatch : t = (connect command s).2 := dispatch_connect hroute hcommand hname
  have haway (h : s.servedApp? command = none) : t = s.close := by
    rw [hdispatch, connect_turnedAway hnew h]
  have hserved (app : ConnectedApp) (happ : s.servedApp? command = some app) :
      Served s command app t := by
    rw [hdispatch]
    exact served_connect hnew hopen happ
  refine ⟨haway, hserved, ?_, ?_⟩
  · intro hwhole app happ
    have hconnected : t.connection ≠ none := by
      rw [(hserved app happ).connection]
      exact Option.some_ne_none app
    have hrange := hwhole.size_inRange hconnected
    refine ⟨hrange, Decidable.byContradiction fun hlong => ?_⟩
    -- Without the reply there are only three messages.
    have hthree := (hserved app happ).tooLong _ ⟨size, hrange.1, hrange.2⟩ rfl hlong
    have hfour := hwhole.messages hconnected
    rw [hthree] at hfour
    exact absurd hfour (Nat.ne_of_lt (Nat.lt_succ_self _))
  · intro hgood
    cases happ : s.servedApp? command with
    | none =>
      rw [haway happ]
      exact .inl ⟨hnew, rfl⟩
    | some app =>
      obtain ⟨hrange, hfits⟩ := hgood app happ
      rw [(hserved app happ).whole _ ⟨size, hrange.1, hrange.2⟩ rfl hfits]
      exact .inr ⟨app, ⟨size, hrange.1, hrange.2⟩, happ, rfl, rfl, rfl⟩

/-- `connect` to live with a body of AMF3. -/
def connectLive : Payload :=
  ⟨.zero, .amf3Command, 0,
    [0, 2, 0, 7, 99, 111, 110, 110, 101, 99, 116, 0, 63, 240, 0, 0, 0, 0, 0, 0,
      3, 0, 3, 97, 112, 112, 2, 0, 4, 108, 105, 118, 101, 0, 0, 9]⟩

def liveCommand : Command :=
  ⟨.amf3, "connect", ⟨0x3ff0000000000000⟩, .object [("app", .text "live")], []⟩

def liveClient : ConnectedApp :=
  ⟨⟨"live", none, none, .zero, [("app", .text "live")]⟩, Server.acceptAll⟩

/-- A session of a server of live that nobody has used. -/
def newSession (config : Config) : Session := { applications := liveApp, config }

theorem route_connectLive (config : Config) : (newSession config).route? connectLive
    = some (.netConnection, ⟨.zero, 0, .command liveCommand⟩) := by
  have hstream : (newSession config).registry.get? connectLive.streamId = some .control := rfl
  have hdecode : Message.decode connectLive.tag connectLive.data = .ok (.command liveCommand) := by
    cbv
  simp only [route?, hstream, hdecode]
  rfl

theorem servedApp_liveCommand (config : Config) :
    (newSession config).servedApp? liveCommand = some liveClient := rfl

theorem connect_outcome_connectLive :
    let s := newSession {}
    let t := s.dispatch connectLive
    s.route? connectLive = some (.netConnection, ⟨.zero, 0, .command liveCommand⟩) ∧
      s.connection = none ∧ s.queue.isOpen = true ∧ Whole s liveCommand t ∧
      t.connection = some liveClient ∧ t.queue.chunkSize = 4096 := by
  intro s t
  obtain ⟨-, hserved, hwhole⟩ :=
    connect_outcome (route_connectLive {}) rfl rfl rfl (s := newSession {}) rfl
  have hfits : (Welcome.of {} liveCommand liveClient.information).reply.data.length
      ≤ maxMessageLength := (connectReply_fits_iff _ _ _).mpr (by decide)
  have ht := (hserved liveClient rfl).whole (Welcome.of _ _ _) ⟨4096, by decide, by decide⟩ rfl hfits
  refine ⟨route_connectLive {}, rfl, rfl, hwhole.mpr ?_, ?_, ?_⟩
  · intro app happ
    cases Option.some.inj ((servedApp_liveCommand {}).symm.trans happ)
    exact ⟨by decide, hfits⟩
  · exact congrArg (·.connection) ht
  · exact congrArg (·.queue.chunkSize) ht

/-- With a chunk size of zero the client is connected and gets two announcements, and nothing comes
after them. -/
theorem connected_without_reply :
    let s := newSession { chunkSize := 0 }
    let t := s.dispatch connectLive
    s.connection = none ∧ s.queue.isOpen = true ∧ t.connection = some liveClient ∧
      t.queue.chunks.map (·.bytes) =
        [[2, 0, 0, 0, 0, 0, 4, 5, 0, 0, 0, 0, 0, 0x26, 0x25, 0xa0],
          [0x42, 0, 0, 0, 0, 0, 5, 6, 0, 0x26, 0x25, 0xa0, 2]] ∧
      t.queue.chunkSize = 128 ∧ ¬ Whole s liveCommand t := by
  intro s t
  have hserved : Served s liveCommand liveClient t := by
    have hdispatch : t = (connect liveCommand s).2 :=
      dispatch_connect (route_connectLive _) rfl rfl
    rw [hdispatch]
    exact served_connect rfl rfl (servedApp_liveCommand _)
  have ht := hserved.refusedSize (Welcome.of _ _ _) (by decide)
  have hconnection := hserved.connection
  refine ⟨rfl, rfl, hconnection, ?_, ?_, ?_⟩
  · rw [ht]
    cbv
  · rw [ht]
    rfl
  · intro hwhole
    have hconnected : t.connection ≠ none := by rw [hconnection]; exact Option.some_ne_none _
    exact absurd (hwhole.size_inRange hconnected).1 (by decide)

end RtmpEndpoint.Session
