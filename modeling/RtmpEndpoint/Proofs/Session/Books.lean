import RtmpEndpoint.Proofs.Session.Oblivious
import RtmpEndpoint.Proofs.Session.StreamIds

/-!
# The books of a session

A session writes down its streams in three places: the ids that are handed out, the message streams
with their handlers, and the NetStreams. They say the same after every step, as long as the
applications leave the ids to the session. What a client has said about itself stands from then on.
-/

namespace RtmpEndpoint

/-! ## Applications that leave the ids alone -/

namespace Application

/-- An operation that hands out or takes back no id but along with a NetStream. -/
def Operation.Confined : Operation → Prop
  | createMessageStream | removeMessageStream _
  | allocateChunkStream | releaseChunkStream _ => False
  | connectionId | isClosed | information | unacknowledgedBytes | writeChunkSize
  | messageStreamIds | liveChunkStreams | close | createNetStream | deleteNetStream _
  | netStream _ | send _ _ _ | sendMessage _ _ _ _ | sendControl _ | setWriteChunkSize _ => True

/-- A procedure with such operations only, whatever it is answered. -/
def Procedure.Confined {α : Type} : Procedure α → Prop
  | done _ => True
  | perform operation next => operation.Confined ∧ ∀ answer, (next answer).Confined

structure Controller.Confined (controller : Controller) : Prop where
  invoke : ∀ streamId command, (controller.invoke streamId command).Confined
  onStreamMessage : ∀ streamId message, (controller.onStreamMessage streamId message).Confined

def Applications.Confined (apps : Applications) : Prop :=
  ∀ entry ∈ apps.entries, entry.2.Confined

theorem Procedure.Confined.bind {α β : Type} {x : Procedure α} {f : α → Procedure β}
    (hx : x.Confined) (hf : ∀ a, (f a).Confined) : (x >>= f).Confined := by
  induction x with
  | done value => exact hf value
  | perform operation next ih => exact ⟨hx.1, fun answer => ih answer (hx.2 answer)⟩

theorem Applications.Confined.get? {apps : Applications} (h : apps.Confined) {app : String}
    {controller : Controller} (hget : apps.get? app = some controller) : controller.Confined := by
  obtain ⟨entry, hfind, rfl⟩ := Option.map_eq_some_iff.mp hget
  exact h entry (List.mem_of_find?_eq_some hfind)

end Application

/-! ## Handlers -/

namespace MessageStream

theorem mem_of_handler? {stream : MessageStream} {tag : Message.Tag} {handler : Handler}
    (h : stream.handler? tag = some handler) : ∃ entry ∈ stream.handlers, entry.2 = handler := by
  obtain ⟨entry, hfind, rfl⟩ := Option.map_eq_some_iff.mp h
  exact ⟨entry, List.mem_of_find?_eq_some hfind, rfl⟩

theorem handler?_control {tag : Message.Tag} {handler : Handler}
    (h : control.handler? tag = some handler) : handler = .netConnection := by
  obtain ⟨entry, hmem, rfl⟩ := mem_of_handler? h
  simp only [control, List.mem_cons, List.not_mem_nil, or_false] at hmem
  rcases hmem with rfl | rfl <;> rfl

theorem handler?_forNetStream {id : UInt32} {tag : Message.Tag} {handler : Handler}
    (h : (forNetStream id).handler? tag = some handler) : handler = .netStream := by
  obtain ⟨entry, hmem, rfl⟩ := mem_of_handler? h
  obtain ⟨tag, -, rfl⟩ := List.mem_map.mp hmem
  rfl

/-- The message stream of a NetStream takes all six types. -/
theorem handler?_of_mem_netStreamTags (id : UInt32) {tag : Message.Tag}
    (h : tag ∈ netStreamTags) : (forNetStream id).handler? tag = some .netStream := by
  simp only [netStreamTags, List.mem_cons, List.not_mem_nil, or_false] at h
  rcases h with rfl | rfl | rfl | rfl | rfl | rfl <;> rfl

end MessageStream

namespace Session

/-! ## Message streams and NetStreams -/

/-- Each NetStream stands under its id and has a message stream with its handlers. Nothing else has
one, the control stream apart. -/
structure StreamsMatch (registry : Registry MessageStream) (streams : Table NetStream) : Prop where
  control : registry.get? controlMessageStreamId = some .control
  messageStream : ∀ id, id ≠ controlMessageStreamId →
    registry.get? id = (streams.get? id).map fun _ => .forNetStream id
  netStream : ∀ id stream, streams.get? id = some stream →
    id ≠ controlMessageStreamId ∧ stream.id = id

namespace StreamsMatch

variable {registry next : Registry MessageStream} {streams : Table NetStream} {id csid : UInt32}
  {stream : NetStream}

theorem new : StreamsMatch (({} : Registry MessageStream).insert controlMessageStreamId .control)
    .empty where
  control := Table.get?_insert_self ..
  messageStream _ hid := (Table.get?_insert ..).trans (if_neg (Ne.symm hid))
  netStream _ _ hget := nomatch hget

/-- An id without a message stream is neither that of the control stream nor that of a NetStream. -/
theorem get?_of_unused (h : StreamsMatch registry streams) (hunused : registry.get? id = none) :
    id ≠ controlMessageStreamId ∧ streams.get? id = none := by
  have hcontrol : id ≠ controlMessageStreamId := by
    rintro rfl
    exact absurd (h.control.symm.trans hunused) (by simp)
  have hnone := (h.messageStream id hcontrol).symm.trans hunused
  exact ⟨hcontrol, by simpa using hnone⟩

theorem insert (h : StreamsMatch registry streams) (hunused : registry.get? id = none)
    (hget : ∀ other, next.get? other
      = if id = other then some (.forNetStream id) else registry.get? other) :
    StreamsMatch next (streams.insert id ⟨id, csid⟩) where
  control := by
    rw [hget, if_neg (h.get?_of_unused hunused).1]
    exact h.control
  messageStream other hne := by
    rw [hget, Table.get?_insert]
    by_cases heq : id = other
    · simp [heq]
    · rw [if_neg heq, if_neg heq]
      exact h.messageStream other hne
  netStream other found hfound := by
    rw [Table.get?_insert] at hfound
    split at hfound
    · next heq =>
      cases hfound
      exact ⟨heq ▸ (h.get?_of_unused hunused).1, heq⟩
    · exact h.netStream other found hfound

theorem erase (h : StreamsMatch registry streams) (hcontrol : id ≠ controlMessageStreamId)
    (hget : ∀ other, next.get? other = if id = other then none else registry.get? other) :
    StreamsMatch next (streams.erase id) where
  control := by
    rw [hget, if_neg hcontrol]
    exact h.control
  messageStream other hne := by
    rw [hget, Table.get?_erase]
    by_cases heq : id = other
    · rw [if_pos heq, if_pos heq]
      rfl
    · rw [if_neg heq, if_neg heq]
      exact h.messageStream other hne
  netStream other found hfound := by
    rw [Table.get?_erase] at hfound
    split at hfound
    · cases hfound
    · exact h.netStream other found hfound

theorem mem_ids_iff (h : StreamsMatch registry streams) (id : UInt32) :
    id ∈ registry.streams.ids ↔ id = controlMessageStreamId ∨ id ∈ streams.values.map (·.id) := by
  have hopen : id ∈ streams.values.map (·.id) ↔ (streams.get? id).isSome = true := by
    simp only [List.mem_map, Table.mem_values_iff, Option.isSome_iff_exists]
    constructor
    · rintro ⟨stream, ⟨key, hstream⟩, rfl⟩
      rw [(h.netStream key stream hstream).2]
      exact ⟨stream, hstream⟩
    · rintro ⟨stream, hstream⟩
      exact ⟨stream, ⟨id, hstream⟩, (h.netStream id stream hstream).2⟩
  have hlookup : id ∈ registry.streams.ids ↔ (registry.get? id).isSome = true := Table.mem_ids_iff
  rw [hlookup, hopen]
  by_cases hid : id = controlMessageStreamId
  · simp [hid, h.control]
  · rw [h.messageStream id hid, Option.isSome_map]
    simp [hid]

/-- A NetStream is found under its id, and all its messages are taken. -/
theorem takes_all (h : StreamsMatch registry streams) (hmem : stream ∈ streams.values) :
    streams.get? stream.id = some stream ∧
      ∃ messages, registry.get? stream.id = some messages ∧
        ∀ tag ∈ MessageStream.netStreamTags, messages.handler? tag = some .netStream := by
  obtain ⟨id, hstream⟩ := Table.mem_values_iff.mp hmem
  obtain ⟨hne, rfl⟩ := h.netStream id stream hstream
  have hmessages := h.messageStream stream.id hne
  rw [hstream] at hmessages
  exact ⟨hstream, .forNetStream stream.id, hmessages,
    fun tag => MessageStream.handler?_of_mem_netStreamTags stream.id⟩

end StreamsMatch

/-! ## Chunk stream ids and NetStreams -/

/-- The ids that are live are those of the NetStreams, and no two have the same. -/
structure ChunkIdsMatch (ids : ChunkStreamIds) (streams : Table NetStream) : Prop where
  live : ∀ csid, ids.isLive csid = true ↔
    ∃ id stream, streams.get? id = some stream ∧ stream.chunkStreamId = csid
  distinct : ∀ id id' stream stream', streams.get? id = some stream →
    streams.get? id' = some stream' → stream.chunkStreamId = stream'.chunkStreamId → id = id'

namespace ChunkIdsMatch

variable {ids next : ChunkStreamIds} {streams : Table NetStream} {id csid : UInt32}
  {stream : NetStream}

theorem new : ChunkIdsMatch .initial .empty where
  live csid := by
    have hlive := ChunkStreamIds.isLive_initial csid
    constructor
    · intro h
      exact absurd (hlive.symm.trans h) (by decide)
    · rintro ⟨id, stream, hget, -⟩
      cases hget
  distinct _ _ _ _ hget := nomatch hget

theorem insert (h : ChunkIdsMatch ids streams) (halloc : ids.allocate = some (csid, next))
    (hnew : streams.get? id = none) : ChunkIdsMatch next (streams.insert id ⟨id, csid⟩) where
  live other := by
    rw [(ChunkStreamIds.isLive_allocate halloc).2, h.live]
    simp only [Table.get?_insert]
    constructor
    · rintro (rfl | ⟨id', stream, hstream, rfl⟩)
      · exact ⟨id, ⟨id, other⟩, if_pos rfl, rfl⟩
      · refine ⟨id', stream, ?_, rfl⟩
        rw [if_neg, hstream]
        rintro rfl
        cases hnew.symm.trans hstream
    · rintro ⟨id', stream, hstream, rfl⟩
      split at hstream
      · cases hstream
        exact .inl rfl
      · exact .inr ⟨id', stream, hstream, rfl⟩
  distinct first second stream stream' hfirst hsecond heq := by
    -- No stream that was open has the id that was handed out.
    have hother : ∀ other found, streams.get? other = some found → found.chunkStreamId ≠ csid := by
      intro other found hfound hcsid
      have hdead := (ChunkStreamIds.isLive_allocate halloc).1
      exact absurd (hdead.symm.trans ((h.live csid).mpr ⟨other, found, hfound, hcsid⟩)) (by decide)
    rw [Table.get?_insert] at hfirst hsecond
    split at hfirst <;> split at hsecond
    · next hfirst' hsecond' => exact hfirst'.symm.trans hsecond'
    · cases hfirst
      exact absurd heq.symm (hother second stream' hsecond)
    · cases hsecond
      exact absurd heq (hother first stream hfirst)
    · exact h.distinct first second stream stream' hfirst hsecond heq

/-- An id that is given back at once leaves no trace in the ids that are live. -/
theorem withdraw (h : ChunkIdsMatch ids streams) (halloc : ids.allocate = some (csid, next)) :
    ChunkIdsMatch (next.release csid) streams where
  live other := by
    obtain ⟨hdead, hlive⟩ := ChunkStreamIds.isLive_allocate halloc
    rw [ChunkStreamIds.isLive_release, hlive, ← h.live]
    constructor
    · rintro ⟨heq | hother, hne⟩
      · exact absurd heq hne
      · exact hother
    · intro hother
      refine ⟨.inr hother, ?_⟩
      rintro rfl
      exact absurd (hdead.symm.trans hother) (by decide)
  distinct := h.distinct

theorem erase (h : ChunkIdsMatch ids streams) (hget : streams.get? id = some stream) :
    ChunkIdsMatch (ids.release stream.chunkStreamId) (streams.erase id) where
  live other := by
    rw [ChunkStreamIds.isLive_release, h.live]
    simp only [Table.get?_erase]
    constructor
    · rintro ⟨⟨id', found, hfound, rfl⟩, hne⟩
      refine ⟨id', found, ?_, rfl⟩
      rw [if_neg, hfound]
      rintro rfl
      rw [hget] at hfound
      exact hne (congrArg _ (Option.some.inj hfound).symm)
    · rintro ⟨id', found, hfound, rfl⟩
      split at hfound
      · cases hfound
      · next hne =>
        refine ⟨⟨id', found, hfound, rfl⟩, fun heq => hne ?_⟩
        exact h.distinct id id' stream found hget hfound heq.symm
  distinct first second found found' hfirst hsecond heq := by
    rw [Table.get?_erase] at hfirst hsecond
    split at hfirst
    · cases hfirst
    · split at hsecond
      · cases hsecond
      · exact h.distinct first second found found' hfirst hsecond heq

theorem live_iff (h : ChunkIdsMatch ids streams) (csid : UInt32) :
    ids.isLive csid = true ↔ csid ∈ streams.values.map (·.chunkStreamId) := by
  simp only [h.live, List.mem_map, Table.mem_values_iff]
  constructor
  · rintro ⟨id, stream, hstream, rfl⟩
    exact ⟨stream, ⟨id, hstream⟩, rfl⟩
  · rintro ⟨stream, ⟨id, hstream⟩, rfl⟩
    exact ⟨id, stream, hstream, rfl⟩

theorem nodup (h : ChunkIdsMatch ids streams) : (streams.values.map (·.chunkStreamId)).Nodup := by
  rw [List.Nodup, List.pairwise_map, Table.values, List.pairwise_map]
  refine streams.pairwise_entries.imp_of_mem ?_
  rintro ⟨id, stream⟩ ⟨id', stream'⟩ hmem hmem' hne heq
  exact hne (h.distinct id id' stream stream' (Table.mem_entries_iff.mp hmem)
    (Table.mem_entries_iff.mp hmem') heq)

end ChunkIdsMatch

/-! ## What is written down -/

structure Books where
  registry : Registry MessageStream
  netStreams : Table NetStream
  connection : Option ConnectedApp
  applications : Application.Applications

def books (s : Session) : Books := ⟨s.registry, s.netStreams, s.connection, s.applications⟩

namespace Books

/-- The three tables say the same, and the applications leave them to the session. -/
structure Agree (b : Books) : Prop where
  streams : StreamsMatch b.registry b.netStreams
  chunkIds : ChunkIdsMatch b.registry.chunkStreamIds b.netStreams
  connected : ∀ app, b.connection = some app → app.controller.Confined
  served : b.applications.Confined

variable {b : Books} {id csid : UInt32} {ids : ChunkStreamIds}

/-- The books of a session that nothing has happened to. -/
theorem agree_new {applications : Application.Applications} (h : applications.Confined) :
    Agree ⟨({} : Registry MessageStream).insert controlMessageStreamId .control, .empty, none,
      applications⟩ where
  streams := .new
  chunkIds := .new
  connected _ happ := nomatch happ
  served := h

/-- A NetStream is opened under ids of both kinds that nothing had. -/
theorem Agree.opened (h : b.Agree) {registry : Registry MessageStream}
    (hcsid : b.registry.chunkStreamIds.allocate = some (csid, ids))
    (hid : ({ b.registry with chunkStreamIds := ids } : Registry MessageStream).add .forNetStream
      = some (id, registry)) :
    b.netStreams.get? id = none ∧
      Agree { b with registry, netStreams := b.netStreams.insert id ⟨id, csid⟩ } := by
  obtain ⟨hunused, hids, hget⟩ := Registry.add_some hid
  have hnew := (h.streams.get?_of_unused hunused).2
  have hsame : registry.chunkStreamIds = ids := hids
  have hchunkIds := h.chunkIds.insert hcsid hnew
  rw [← hsame] at hchunkIds
  exact ⟨hnew, h.streams.insert hunused hget, hchunkIds, h.connected, h.served⟩

/-- No message stream could be opened for a chunk stream id. -/
theorem Agree.withdrawn (h : b.Agree)
    (hcsid : b.registry.chunkStreamIds.allocate = some (csid, ids)) :
    Agree { b with registry := { b.registry with chunkStreamIds := ids.release csid } } where
  streams := ⟨h.streams.control, h.streams.messageStream, h.streams.netStream⟩
  chunkIds := h.chunkIds.withdraw hcsid
  connected := h.connected
  served := h.served

/-- A NetStream is closed, and its ids of both kinds are given back. -/
theorem Agree.closed (h : b.Agree) {stream : NetStream} (hid : b.netStreams.get? id = some stream) :
    Agree { b with
      registry := (b.registry.remove id).2.releaseChunkStream stream.chunkStreamId
      netStreams := b.netStreams.erase id } where
  streams := by
    have hcontrol := (h.streams.netStream id stream hid).1
    exact h.streams.erase hcontrol (Registry.get?_remove hcontrol)
  chunkIds := by
    have hchunkIds := h.chunkIds.erase hid
    rw [← Registry.chunkStreamIds_remove id] at hchunkIds
    exact hchunkIds
  connected := h.connected
  served := h.served

end Books

end Session

end RtmpEndpoint
