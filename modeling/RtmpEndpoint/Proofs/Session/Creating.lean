import Mathlib
import RtmpEndpoint.Proofs.Session.ChunkStreamIds
import RtmpEndpoint.Proofs.Session.Connecting
import RtmpEndpoint.Proofs.Session.Keeping
import RtmpEndpoint.Proofs.Session.Lasting
import RtmpEndpoint.Proofs.Session.MessageStreamIds

/-!
# What comes of a `createStream`

A stream takes a chunk stream id and a message stream id. When one of them is not to be had, the
other is given back, and the peer is told why. Otherwise the tables grow by the new stream. But a
NetStream whose message stream was removed still stands under its id, and the id can be handed out:
then the new stream takes its place.
-/

namespace RtmpEndpoint.Session

open ChunkStreamIds (InRange)

variable {s t : Session} {payload : Payload} {command : Command} {stream : NetStream}

/-! ## The reply -/

/-- The id of the new stream, or why there is none. -/
def createReply (command : Command) : Except String UInt32 → Command
  | .ok id => ⟨command.encoding, "_result", command.transactionId, .null,
      [.number (.ofNat id.toNat)]⟩
  | .error reason => ⟨command.encoding, "_error", command.transactionId, .null,
      [.status "error" createStreamFailed reason]⟩

/-- One message is queued, and it carries this answer. -/
def Answered (command : Command) (answer : Except String UInt32) (s t : Session) : Prop :=
  ∃ payload, Carries payload (.command (createReply command answer)) ∧
    t.queue = s.queue.replay [.message Chunk.controlStreamId payload]

def createPayload (command : Command) (answer : Except String UInt32) : Payload :=
  let reply := createReply command answer
  ⟨.zero, (Message.command reply).tag, controlMessageStreamId,
    Message.formatSelector command.encoding
      ++ Amf0.Value.prependAll (Message.commandValues reply) []⟩

theorem carries_createPayload (command : Command) (answer : Except String UInt32) :
    Carries (createPayload command answer) (.command (createReply command answer)) where
  encoded := by
    have hroom : Amf0.Value.faultOfAll? (Message.commandValues (createReply command answer))
        = none := by cases answer <;> rfl
    have hencoding : (createReply command answer).encoding = command.encoding := by
      cases answer <;> rfl
    simp only [Message.encode, Message.encodeBody, Message.encodeValues, Amf0.Value.encodeAll,
      hroom, hencoding]
    rfl
  timestamp := rfl
  streamId := rfl

/-- A reason that can be given in a short string. -/
def IsShort : Except String UInt32 → Prop
  | .ok _ => True
  | .error reason => (Utf8.encode reason).length ≤ 0xffff

theorem createPayload_fits {answer : Except String UInt32} (h : IsShort answer) :
    (createPayload command answer).data.length ≤ Chunk.maxMessageLength := by
  have hselector : (Message.formatSelector command.encoding).length ≤ 1 := by
    cases command.encoding <;> decide
  rw [createPayload, Chunk.maxMessageLength]
  cases answer with
  | ok id =>
    have hvalues : Message.commandValues (createReply command (.ok id)) = [.text "_result",
        .number command.transactionId, .null, .number (.ofNat id.toNat)] := rfl
    have hname : (Amf0.Value.encodeText "_result").length = 10 := rfl
    simp only [hvalues, Amf0.Value.prependAll, Amf0.Value.prepend, List.length_append,
      List.length_cons, List.length_nil, Bytes.ofUInt64, Bytes.length_ofNat]
    omega
  | error reason =>
    have hvalues : Message.commandValues (createReply command (.error reason)) = [.text "_error",
        .number command.transactionId, .null, .object [("code", .text createStreamFailed),
          ("description", .text reason), ("level", .text "error")]] := rfl
    have htexts : (Amf0.Value.encodeText "_error").length = 9 ∧
        (Amf0.Value.encodeText createStreamFailed).length = 36 ∧
        (Amf0.Value.encodeText "error").length = 8 := ⟨rfl, rfl, rfl⟩
    have hnames : (Amf0.Value.encodeName "code").length = 6 ∧
        (Amf0.Value.encodeName "description").length = 13 ∧
        (Amf0.Value.encodeName "level").length = 7 := ⟨rfl, rfl, rfl⟩
    have hend : Amf0.Value.propertiesEnd.length = 3 := rfl
    have hreason : (Amf0.Value.encodeText reason).length ≤ 5 + 0xffff := by
      unfold Amf0.Value.encodeText
      dsimp only
      have hshort : (Utf8.encode reason).length ≤ 0xffff := h
      split <;> simp only [List.length_cons, List.length_append, Bytes.length_ofNat] <;> omega
    simp only [hvalues, Amf0.Value.prependAll, Amf0.Value.prepend, Amf0.Value.prependProperties,
      List.length_append, List.length_cons, List.length_nil, Bytes.ofUInt64, Bytes.length_ofNat]
    omega

/-- Whether the reply is built as a result or as an error, it is the answer in the encoding of the
request, and it cannot be refused. -/
theorem answered {reply : Command} {answer : Except String UInt32} (hshort : IsShort answer)
    (hreply : { reply with encoding := command.encoding } = createReply command answer)
    (hopen : s.queue.isOpen = true) : (replyOnControl command reply s).2
      = s.sent [.message Chunk.controlStreamId (createPayload command answer)] := by
  have hsent := sendControl_fits (carries_createPayload command answer)
    (createPayload_fits hshort) hopen
  have hreplied : replyOnControl command reply
      = unawaited (sendControl (.command { reply with encoding := command.encoding })) := rfl
  rw [hreplied, hreply, unawaited_ok hsent]

/-! ## Opening a NetStream -/

/-- The same message streams, NetStreams and chunk stream ids are in use. -/
structure SameStreams (s t : Session) : Prop where
  messages : ∀ id, t.messageStream? id = s.messageStream? id
  netStreams : ∀ id, t.netStream? id = s.netStream? id
  csids : ∀ csid, t.registry.chunkStreamIds.isLive csid = s.registry.chunkStreamIds.isLive csid

theorem SameStreams.refl (s : Session) : SameStreams s s :=
  ⟨fun _ => rfl, fun _ => rfl, fun _ => rfl⟩

/-- The stream stands under an id that no message stream had, with a chunk stream id that was not in
use. The other ids have the streams that they had. -/
structure Placed (stream : NetStream) (s t : Session) : Prop where
  id_unused : s.messageStream? stream.id = none
  csid_inRange : InRange stream.chunkStreamId
  csid_unused : s.registry.chunkStreamIds.isLive stream.chunkStreamId = false
  messages : ∀ id, t.messageStream? id
    = if stream.id = id then some (.forNetStream id) else s.messageStream? id
  netStreams : ∀ id, t.netStream? id = if stream.id = id then some stream else s.netStream? id

/-- If there was a NetStream under the id, the chunk stream id of that one is in use no more. -/
structure Opened (stream : NetStream) (s t : Session) : Prop extends Placed stream s t where
  csids : ∀ csid, t.registry.chunkStreamIds.isLive csid = true ↔
    (csid = stream.chunkStreamId ∨ s.registry.chunkStreamIds.isLive csid = true) ∧
      ∀ old, s.netStream? stream.id = some old → csid ≠ old.chunkStreamId

/-- The tables have grown by the stream and its chunk stream id, and the rest is as before. -/
structure Grown (stream : NetStream) (s t : Session) : Prop extends Placed stream s t where
  netStream_unused : s.netStream? stream.id = none
  csids : ∀ csid, t.registry.chunkStreamIds.isLive csid = true ↔
    csid = stream.chunkStreamId ∨ s.registry.chunkStreamIds.isLive csid = true

/-- The tables grow, unless another NetStream had to make room. -/
theorem Opened.grown_iff (h : Opened stream s t) :
    Grown stream s t ↔ s.netStream? stream.id = none := by
  refine ⟨Grown.netStream_unused, fun hnone => ⟨h.toPlaced, hnone, fun csid => ?_⟩⟩
  rw [h.csids csid, hnone]
  simp

/-- There is a chunk stream id that is not in use. -/
def HasCsid (s : Session) : Prop :=
  ∃ csid, InRange csid ∧ s.registry.chunkStreamIds.isLive csid = false

theorem hasCsid_iff : s.HasCsid ↔ s.registry.chunkStreamIds.allocate ≠ none := by
  rw [Ne, ChunkStreamIds.allocate_eq_none_iff, HasCsid]
  simp

/-- What is left when both ids could be had. -/
theorem opened_putNetStream {ids : ChunkStreamIds} {registry : Registry MessageStream}
    {id csid : UInt32} (hcsid : s.registry.chunkStreamIds.allocate = some (csid, ids))
    (hadd : ({ s.registry with chunkStreamIds := ids } : Registry MessageStream).add .forNetStream
      = some (id, registry)) :
    Opened ⟨id, csid⟩ s ({ s with registry }.putNetStream ⟨id, csid⟩) := by
  obtain ⟨hunused, hids, hget⟩ := Registry.add_some hadd
  obtain ⟨hfresh, hlive⟩ := ChunkStreamIds.isLive_allocate hcsid
  have hrange : InRange csid := ChunkStreamIds.inRange_of_isLive ((hlive csid).mpr (.inl rfl))
  have hmessages (other : UInt32) : registry.get? other
      = if id = other then some (.forNetStream other) else s.messageStream? other := by
    rw [hget]
    split
    · next heq => rw [heq]
    · rfl
  have hput (other : UInt32) : (s.netStreams.insert id ⟨id, csid⟩).get? other
      = if id = other then some ⟨id, csid⟩ else s.netStream? other := Table.get?_insert ..
  cases hold : s.netStreams.get? id with
  | none =>
    have hnext : ({ s with registry }.putNetStream ⟨id, csid⟩ : Session)
        = { s with registry, netStreams := s.netStreams.insert id ⟨id, csid⟩ } := by
      simp only [putNetStream, hold]
    rw [hnext]
    refine ⟨⟨hunused, hrange, hfresh, hmessages, hput⟩, fun other => ?_⟩
    simp [hids, hlive, netStream?, hold]
  | some old =>
    have hnext : ({ s with registry }.putNetStream ⟨id, csid⟩ : Session)
        = { s with registry := registry.releaseChunkStream old.chunkStreamId,
                   netStreams := s.netStreams.insert id ⟨id, csid⟩ } := by
      simp only [putNetStream, hold, releaseChunkStream]
    rw [hnext]
    refine ⟨⟨hunused, hrange, hfresh, hmessages, hput⟩, fun other => ?_⟩
    simp only [Registry.releaseChunkStream, ChunkStreamIds.isLive_release, hids, hlive, netStream?,
      hold, Option.some.injEq, forall_eq']

/-- What comes of opening a NetStream. -/
theorem createNetStream_cases (s : Session) :
    (¬s.HasCsid ∧ createNetStream s = (.error .chunkStreamIdsExhausted, s)) ∨
    (s.HasCsid ∧ ¬s.registry.HasUnused ∧
      ∃ t, createNetStream s = (.error .messageStreamIdsExhausted, t) ∧ SameStreams s t) ∨
    (s.HasCsid ∧ s.registry.HasUnused ∧
      ∃ stream t, createNetStream s = (.ok stream, t) ∧ Opened stream s t) := by
  cases hcsid : s.registry.chunkStreamIds.allocate with
  | none =>
    refine .inl ⟨by rw [hasCsid_iff, hcsid]; simp, ?_⟩
    simp only [createNetStream, allocateChunkStream_of_none hcsid]
  | some handed =>
    obtain ⟨csid, ids⟩ := handed
    have hhas : s.HasCsid := by rw [hasCsid_iff, hcsid]; simp
    let registry : Registry MessageStream := { s.registry with chunkStreamIds := ids }
    -- Only the streams and the counter tell which message stream id is next.
    have hsame : registry.HasUnused ↔ s.registry.HasUnused := Iff.rfl
    cases hadd : registry.add .forNetStream with
    | none =>
      refine .inr (.inl ⟨hhas, hsame.not.mp (Registry.add_eq_none_iff.mp hadd),
        ({ s with registry } : Session).releaseChunkStream csid, ?_, ?_⟩)
      · simp only [createNetStream, allocateChunkStream_of_some hcsid, addMessageStream, hadd,
          registry]
      · -- The chunk stream id was handed out in vain.
        exact ⟨fun _ => rfl, fun _ => rfl, ChunkStreamIds.isLive_release_allocate hcsid⟩
    | some added =>
      obtain ⟨id, added⟩ := added
      have hunused : s.registry.HasUnused := by
        rw [← hsame]
        refine Classical.byContradiction fun hnot => ?_
        cases hadd.symm.trans (Registry.add_eq_none_iff.mpr hnot)
      refine .inr (.inr ⟨hhas, hunused, ⟨id, csid⟩, _, ?_, opened_putNetStream hcsid hadd⟩)
      simp only [createNetStream, allocateChunkStream_of_some hcsid, addMessageStream, hadd,
        registry]

/-! ## A `createStream` -/

theorem dispatch_createStream {inbound : Inbound}
    (hroute : s.route? payload = some (.netConnection, inbound))
    (hcommand : inbound.message = .command command) (hname : command.name = "createStream") :
    s.dispatch payload = (createStream command s).2 := by
  simp only [dispatch, hroute, handle, hcommand, connectionCommand, hname]

/-- The reason that a client is given which has not connected. -/
def notConnected : String := "Not connected"

def answerOf : Except SessionError NetStream → Except String UInt32
  | .ok stream => .ok stream.id
  | .error error => .error error.message

theorem createStream_unconnected (hc : s.connection = none) (hopen : s.queue.isOpen = true) :
    (createStream command s).2
      = s.sent [.message Chunk.controlStreamId (createPayload command (.error notConnected))] := by
  have hshort : IsShort (.error notConnected) := by
    rw [IsShort]
    decide
  rw [createStream, if_pos (by rw [hc]; rfl)]
  exact answered hshort rfl hopen

theorem createStream_answered {created : Except SessionError NetStream}
    (hc : s.connection ≠ none) (hopen : s.queue.isOpen = true)
    (h : createNetStream s = (created, t)) (hshort : IsShort (answerOf created)) :
    (createStream command s).2
      = t.sent [.message Chunk.controlStreamId (createPayload command (answerOf created))] := by
  have hconnected : s.connection.isNone = false := by
    rw [Option.isNone_eq_false_iff, Option.isSome_iff_ne_none]
    exact hc
  have hqueue := spares_createNetStream.queue s
  rw [h] at hqueue
  rw [createStream_eq command hconnected, h]
  cases created with
  | ok stream => exact answered hshort rfl (by rw [hqueue, hopen])
  | error error => exact answered hshort rfl (by rw [hqueue, hopen])

/-! The reply is all that is added to what was done to the streams. -/

theorem answered_sent (hqueue : t.queue = s.queue) (command : Command)
    (answer : Except String UInt32) : Answered command answer s
      (t.sent [.message Chunk.controlStreamId (createPayload command answer)]) := by
  refine ⟨createPayload command answer, carries_createPayload command answer, ?_⟩
  rw [← hqueue]
  rfl

theorem SameStreams.sent (h : SameStreams s t) (log : List Flow.SendQueue.Entry) :
    SameStreams s (t.sent log) := ⟨h.messages, h.netStreams, h.csids⟩

theorem Opened.sent (h : Opened stream s t) (log : List Flow.SendQueue.Entry) :
    Opened stream s (t.sent log) :=
  ⟨⟨h.id_unused, h.csid_inRange, h.csid_unused, h.messages, h.netStreams⟩, h.csids⟩

/-! ## Sessions that were used in any way -/

theorem counted_allocateChunkStream (hs : s.registry.Counted) :
    (allocateChunkStream s).2.registry.Counted := by
  cases hcsid : s.registry.chunkStreamIds.allocate with
  | none =>
    rw [allocateChunkStream_of_none hcsid]
    exact hs
  | some handed =>
    rw [allocateChunkStream_of_some hcsid]
    exact ⟨hs.one_le_next, hs.passed⟩

theorem counted_addMessageStream (build : UInt32 → MessageStream) (hs : s.registry.Counted) :
    (addMessageStream build s).2.registry.Counted := by
  cases hadd : s.registry.add build with
  | none => simpa only [addMessageStream, hadd] using hs
  | some added => simpa only [addMessageStream, hadd] using hs.stored (Registry.stores_add hadd)

theorem counted_putNetStream (stream : NetStream) (hs : s.registry.Counted) :
    (s.putNetStream stream).registry.Counted := by
  simp only [putNetStream]
  split
  · exact ⟨hs.one_le_next, hs.passed⟩
  · exact hs

theorem counted_createNetStream (hs : s.registry.Counted) :
    (createNetStream s).2.registry.Counted := by
  have hallocate := counted_allocateChunkStream hs
  unfold createNetStream
  split
  · next ha => rwa [ha] at hallocate
  · next csid t ha =>
    rw [ha] at hallocate
    have hadd := counted_addMessageStream .forNetStream hallocate
    split
    · next hs =>
      rw [hs] at hadd
      exact ⟨hadd.one_le_next, hadd.passed⟩
    · next id u hs =>
      rw [hs] at hadd
      exact counted_putNetStream ⟨id, csid⟩ hadd

theorem counted_removeMessageStream (id : UInt32) (hs : s.registry.Counted) :
    (s.removeMessageStream id).2.registry.Counted := by
  cases hremove : s.registry.remove id with
  | mk removed registry =>
    simp only [removeMessageStream, hremove]
    cases removed with
    | none => exact Registry.remove_none hremove ▸ hs
    | some stream => exact hs.removed (Registry.remove_some hremove)

theorem counted_deleteNetStream (id : UInt32) (hs : s.registry.Counted) :
    (s.deleteNetStream id).2.registry.Counted := by
  unfold deleteNetStream
  split
  · exact hs
  · have hremoved := counted_removeMessageStream (s := { s with netStreams := _ }) id hs
    exact ⟨hremoved.one_le_next, hremoved.passed⟩

theorem QueueOnly.counted {α : Type} {x : Session → α × Session} (h : QueueOnly x)
    (hs : s.registry.Counted) : (x s).2.registry.Counted := by
  obtain ⟨queue, hnext⟩ := h s
  rw [hnext]
  exact hs

theorem counted_perform (operation : Application.Operation) (hs : s.registry.Counted) :
    (s.perform operation).2.registry.Counted := by
  cases operation with
  | createNetStream => exact counted_createNetStream hs
  | deleteNetStream id => exact counted_deleteNetStream id hs
  | createMessageStream => exact counted_addMessageStream _ hs
  | removeMessageStream id => exact counted_removeMessageStream id hs
  | allocateChunkStream => exact counted_allocateChunkStream hs
  | releaseChunkStream id => exact ⟨hs.one_le_next, hs.passed⟩
  | send | sendMessage | sendControl =>
    exact (queueOnly_unawaited (queueOnly_sendMessage _ _ _ _)).counted hs
  | setWriteChunkSize size =>
    exact (queueOnly_unawaited (queueOnly_setWriteChunkSize size)).counted hs
  | connectionId | isClosed | information | unacknowledgedBytes | writeChunkSize
  | messageStreamIds | liveChunkStreams | close | netStream => exact hs

theorem upholds_counted : Upholds fun s => s.registry.Counted where
  perform operation _ := counted_perform operation
  note _ _ := id
  connect _ _ := id

theorem counted_take (hs : s.registry.Counted) (activity : Activity) :
    (activity.take s).registry.Counted := by
  cases activity with
  | performing operation => exact counted_perform operation hs
  | incoming payload => exact upholds_counted.dispatch payload hs
  | requeuing queue => exact hs
  | registering id tag handler =>
    cases hstream : s.messageStream? id with
    | none => simpa only [Activity.take, hstream] using hs
    | some stream =>
      simp only [Activity.take, hstream, registerHandler]
      split
      · exact hs.stored (Registry.stores_insert ..)
      · exact hs

theorem counted_run (hs : s.registry.Counted) (activities : List Activity) :
    (run activities s).registry.Counted := by
  induction activities generalizing s with
  | nil => exact hs
  | cons activity activities ih => exact ih (counted_take hs activity)

theorem counted_new (connectionId : Nat) (config : Config)
    (applications : Application.Applications) (queue : Flow.SendQueue) :
    ({ connectionId, config, applications, queue } : Session).registry.Counted :=
  Registry.Counted.new.stored (Registry.stores_insert ..)

/-- Any message stream id without a stream can be had. A NetStream stands under one only after the
removal of its message stream. -/
theorem unused_of_run (connectionId : Nat) (config : Config)
    (applications : Application.Applications) (queue : Flow.SendQueue) (history : List Activity)
    (hreached : run history { connectionId, config, applications, queue } = s) (id : UInt32)
    (hunused : s.messageStream? id = none) :
    (1 ≤ id.toNat → id.toNat < Registry.endOfIds → s.registry.HasUnused) ∧
      (s.netStream? id ≠ none → .removeMessageStream id ∈
        carriedOut history { connectionId, config, applications, queue }) := by
  have hcounted : s.registry.Counted :=
    hreached ▸ counted_run (counted_new connectionId config applications queue) history
  refine ⟨fun hone hend => hcounted.hasUnused hone hend hunused, fun hstale => ?_⟩
  refine Classical.byContradiction fun hremove => hstale ?_
  have hfollows := follows_run (grounded_new connectionId config applications queue) history id
  rw [hreached] at hfollows
  exact hfollows.paired hremove (fun _ => rfl) hunused

/-- What comes of a `createStream`. A client that has not connected is told so, as is one for which
an id is not to be had, and nothing is in use that was not before. Otherwise the reply names the new
stream, and the tables have grown by it unless another NetStream stood under its id. In a session
that was only used through its operations and by its peer, every message stream id without a stream
can be had, and a NetStream stands under one only after the removal of its message stream. -/
theorem createStream_outcome {inbound : Inbound}
    (hroute : s.route? payload = some (.netConnection, inbound))
    (hcommand : inbound.message = .command command) (hname : command.name = "createStream")
    (hopen : s.queue.isOpen = true) :
    let t := s.dispatch payload
    (s.connection = none → Answered command (.error notConnected) s t ∧ SameStreams s t) ∧
    (s.connection ≠ none → ¬s.HasCsid →
      Answered command (.error SessionError.chunkStreamIdsExhausted.message) s t ∧
        SameStreams s t) ∧
    (s.connection ≠ none → s.HasCsid → ¬s.registry.HasUnused →
      Answered command (.error SessionError.messageStreamIdsExhausted.message) s t ∧
        SameStreams s t) ∧
    (s.connection ≠ none → s.HasCsid → s.registry.HasUnused →
      ∃ stream, Answered command (.ok stream.id) s t ∧ Opened stream s t ∧
        (Grown stream s t ↔ s.netStream? stream.id = none)) ∧
    (∀ connectionId config applications queue history,
      run history { connectionId, config, applications, queue } = s →
        ∀ id, s.messageStream? id = none →
          (1 ≤ id.toNat → id.toNat < Registry.endOfIds → s.registry.HasUnused) ∧
            (s.netStream? id ≠ none → .removeMessageStream id ∈
              carriedOut history { connectionId, config, applications, queue })) := by
  intro t
  have ht : t = (createStream command s).2 := dispatch_createStream hroute hcommand hname
  have hused := unused_of_run (s := s)
  rw [ht]
  by_cases hc : s.connection = none
  · refine ⟨fun _ => ?_, fun h => absurd hc h, fun h => absurd hc h, fun h => absurd hc h, hused⟩
    rw [createStream_unconnected hc hopen]
    exact ⟨answered_sent rfl command _, (SameStreams.refl s).sent _⟩
  have hqueue := spares_createNetStream.queue s
  refine ⟨fun h => absurd h hc, ?_⟩
  rcases createNetStream_cases s with ⟨hno, hrun⟩ | ⟨hhas, hno, u, hrun, hsame⟩ |
    ⟨hhas, hunused, stream, u, hrun, hopened⟩
  · refine ⟨fun _ _ => ?_, fun _ h => absurd h hno, fun _ h => absurd h hno, hused⟩
    rw [createStream_answered hc hopen hrun (by rw [answerOf, IsShort]; decide)]
    exact ⟨answered_sent rfl command _, (SameStreams.refl s).sent _⟩
  · rw [hrun] at hqueue
    refine ⟨fun _ h => absurd hhas h, fun _ _ _ => ?_, fun _ _ h => absurd h hno, hused⟩
    rw [createStream_answered hc hopen hrun (by rw [answerOf, IsShort]; decide)]
    exact ⟨answered_sent hqueue command _, hsame.sent _⟩
  · rw [hrun] at hqueue
    refine ⟨fun _ h => absurd hhas h, fun _ _ h => absurd hunused h, fun _ _ _ => ?_, hused⟩
    rw [createStream_answered hc hopen hrun trivial]
    have hopened := hopened.sent
      [.message Chunk.controlStreamId (createPayload command (.ok stream.id))]
    exact ⟨stream, answered_sent hqueue command _, hopened, hopened.grown_iff⟩

/-- A client of live. -/
def liveSession : Session := run [.incoming connectLive] (newSession {})

def create : Command := ⟨.amf0, "createStream", ⟨0x4000000000000000⟩, .null, []⟩

def createOnControl : Payload :=
  ⟨.zero, .amf0Command, 0,
    [2, 0, 12, 99, 114, 101, 97, 116, 101, 83, 116, 114, 101, 97, 109,
      0, 0x40, 0, 0, 0, 0, 0, 0, 0, 5]⟩

theorem decode_createOnControl :
    Message.decode createOnControl.tag createOnControl.data = .ok (.command create) := by cbv

theorem route_createOnControl (h : s.messageStream? 0 = some .control) :
    s.route? createOnControl = some (.netConnection, ⟨.zero, 0, .command create⟩) := by
  have hstands : s.registry.get? createOnControl.streamId = some .control := h
  simp only [route?, hstands, decode_createOnControl]
  rfl

/-- All that a `connect` does to the session is that it is connected and has sent its welcome. -/
theorem liveSession_eq :
    ∃ log, liveSession = ((newSession {}).connectedTo liveClient).sent log := by
  have hdispatch : liveSession = (connect liveCommand (newSession {})).2 :=
    dispatch_connect (route_connectLive {}) rfl rfl
  have hfits : (Welcome.of {} liveCommand liveClient.information).reply.data.length
      ≤ Chunk.maxMessageLength := (connectReply_fits_iff _ _ _).mpr (by decide)
  have hserved := served_connect (s := newSession {}) rfl rfl (servedApp_liveCommand {})
  rw [hdispatch]
  exact ⟨_, hserved.whole (Welcome.of _ _ _) ⟨4096, by decide, by decide⟩ rfl hfits⟩

theorem createStream_outcome_liveSession :
    let t := liveSession.dispatch createOnControl
    liveSession.connection = some liveClient ∧ liveSession.queue.isOpen = true ∧
      liveSession.route? createOnControl = some (.netConnection, ⟨.zero, 0, .command create⟩) ∧
      ∃ stream, Answered create (.ok stream.id) liveSession t ∧ Grown stream liveSession t := by
  obtain ⟨log, heq⟩ := liveSession_eq
  have hconnected : liveSession.connection = some liveClient := by rw [heq]; rfl
  have hopen : liveSession.queue.isOpen = true := by rw [heq, isOpen_sent]; rfl
  have hroute := route_createOnControl (s := liveSession) (by rw [heq]; rfl)
  have hcsid : liveSession.HasCsid := ⟨3, ⟨by decide, by decide⟩, by rw [heq]; rfl⟩
  obtain ⟨-, -, -, hopened, hused⟩ := createStream_outcome hroute rfl rfl hopen
  have hid := (hused 1 {} liveApp {} _ rfl 1 (by rw [heq]; rfl)).1 (by decide) (by decide)
  obtain ⟨stream, hanswered, -, hgrown⟩ :=
    hopened (by rw [hconnected]; exact Option.some_ne_none _) hcsid hid
  exact ⟨hconnected, hopen, hroute, stream, hanswered, hgrown.mpr (by rw [heq]; rfl)⟩

/-- The message stream of a NetStream was removed. -/
def staleSession : Session :=
  run [.incoming connectLive, .performing .createNetStream, .performing (.removeMessageStream 1)]
    (newSession {})

theorem connected_staleSession : staleSession.connection = some liveClient ∧
    staleSession.queue.isOpen = true ∧ staleSession.messageStream? 0 = some .control :=
  ⟨by cbv, by cbv, by cbv⟩

theorem ids_staleSession : staleSession.HasCsid ∧ staleSession.registry.HasUnused :=
  ⟨⟨4, ⟨by decide, by decide⟩, by cbv⟩, 2, by cbv, .inr (by cbv)⟩

theorem netStreams_staleSession : staleSession.netStream? 1 = some ⟨1, 3⟩ ∧
    (staleSession.dispatch createOnControl).netStream? 1 = some ⟨1, 4⟩ := ⟨by cbv, by cbv⟩

theorem csids_staleSession : staleSession.registry.chunkStreamIds.live = 1 ∧
    (staleSession.dispatch createOnControl).registry.chunkStreamIds.live = 1 := ⟨by cbv, by cbv⟩

/-- The new stream takes the id of the NetStream that is still open and ends it: there are as many
NetStreams and chunk stream ids as before. -/
theorem created_over_another :
    let t := staleSession.dispatch createOnControl
    staleSession.connection = some liveClient ∧ staleSession.queue.isOpen = true ∧
      staleSession.route? createOnControl = some (.netConnection, ⟨.zero, 0, .command create⟩) ∧
      staleSession.HasCsid ∧ staleSession.registry.HasUnused ∧
      staleSession.netStream? 1 = some ⟨1, 3⟩ ∧ t.netStream? 1 = some ⟨1, 4⟩ ∧
      staleSession.registry.chunkStreamIds.live = 1 ∧ t.registry.chunkStreamIds.live = 1 ∧
      ∀ stream, ¬Grown stream staleSession t := by
  obtain ⟨hcsid, hid⟩ := ids_staleSession
  obtain ⟨hold, hnew⟩ := netStreams_staleSession
  obtain ⟨hbefore, hafter⟩ := csids_staleSession
  obtain ⟨hconnected, hopen, hcontrol⟩ := connected_staleSession
  refine ⟨hconnected, hopen, route_createOnControl hcontrol, hcsid, hid, hold, hnew, hbefore,
    hafter, fun stream hgrown => ?_⟩
  have hentry := hgrown.netStreams 1
  rw [hold, hnew] at hentry
  split at hentry
  · next heq =>
    have hunused := hgrown.netStream_unused
    rw [heq, hold] at hunused
    cases hunused
  · cases hentry

end RtmpEndpoint.Session
