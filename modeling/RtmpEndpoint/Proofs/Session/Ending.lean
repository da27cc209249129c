import RtmpEndpoint.Proofs.Session.Calling
import RtmpEndpoint.Proofs.Session.ChunkStreamIds

/-!
# The end of a session

When the loops of its connection have stopped, a session drops all that it has. A message then finds
no message stream to go to, not even the control stream, so the peer cannot bring the session back.
Only its owner can, by creating a stream.
-/

namespace RtmpEndpoint

namespace ChunkStreamIds

/-- Giving back the ids of some NetStreams. -/
def releaseAll (streams : List NetStream) (ids : ChunkStreamIds) : ChunkStreamIds :=
  streams.foldl (fun ids stream => ids.release stream.chunkStreamId) ids

theorem isLive_releaseAll (streams : List NetStream) (ids : ChunkStreamIds) (csid : UInt32) :
    (ids.releaseAll streams).isLive csid = true ↔
      ids.isLive csid = true ∧ ∀ stream ∈ streams, stream.chunkStreamId ≠ csid := by
  induction streams generalizing ids with
  | nil => simp [releaseAll]
  | cons stream streams ih =>
    have hnext : ids.releaseAll (stream :: streams)
        = (ids.release stream.chunkStreamId).releaseAll streams := rfl
    rw [hnext, ih, isLive_release, List.forall_mem_cons, and_assoc, ne_comm]

/-- With no id live none is handed out. -/
theorem live_eq_zero {ids : ChunkStreamIds} (h : ∀ csid, ids.isLive csid = false) :
    ids.live = 0 := by
  refine live_eq .nil fun csid => ?_
  simp [h csid]

end ChunkStreamIds

namespace Session

open Application (Operation)

variable {s : Session} {operation : Operation} {activity : Activity}

/-! ## What is left of a session -/

/-- To close streams is to give back their chunk stream ids. -/
theorem foldl_releaseChunkStream (streams : List NetStream) (s : Session) :
    streams.foldl (fun s stream => s.releaseChunkStream stream.chunkStreamId) s
      = { s with registry := { s.registry with
          chunkStreamIds := s.registry.chunkStreamIds.releaseAll streams } } := by
  induction streams generalizing s with
  | nil => rfl
  | cons stream streams ih => exact ih _

theorem shutdown_eq (s : Session) : s.shutdown = { s with
    isClosed := true
    netStreams := .empty
    connection := none
    registry := { s.registry with
      streams := .empty
      chunkStreamIds := s.registry.chunkStreamIds.releaseAll s.netStreams.values } } :=
  foldl_releaseChunkStream _ _

/-- The session is closed and has no streams and no client. -/
structure Ended (s : Session) : Prop where
  isClosed : s.isClosed = true
  messageStreams : s.registry.streams = .empty
  netStreams : s.netStreams = .empty
  connection : s.connection = none

theorem ended_shutdown (s : Session) : s.shutdown.Ended := by
  rw [shutdown_eq]
  exact ⟨rfl, rfl, rfl, rfl⟩

theorem isLive_shutdown (s : Session) (csid : UInt32) :
    s.shutdown.registry.chunkStreamIds.isLive csid = true ↔
      s.registry.chunkStreamIds.isLive csid = true ∧
        ∀ id stream, s.netStream? id = some stream → stream.chunkStreamId ≠ csid := by
  rw [shutdown_eq]
  refine (ChunkStreamIds.isLive_releaseAll _ _ csid).trans (and_congr_right fun _ => ?_)
  simp only [Table.mem_values_iff]
  exact ⟨fun h id stream hstream => h stream ⟨id, hstream⟩,
    fun h stream ⟨id, hstream⟩ => h id stream hstream⟩

/-! ## Afterwards -/

theorem Ended.messageStream? (h : s.Ended) (id : UInt32) : s.messageStream? id = none := by
  rw [Session.messageStream?, Registry.get?, h.messageStreams]
  rfl

theorem Ended.netStream? (h : s.Ended) (id : UInt32) : s.netStream? id = none := by
  rw [Session.netStream?, h.netStreams]
  rfl

/-- A message finds nothing to go to. -/
theorem Ended.dispatch (h : s.Ended) (payload : Payload) : s.dispatch payload = s := by
  have hnowhere : s.registry.get? payload.streamId = none := h.messageStream? payload.streamId
  have hroute : s.route? payload = none := by
    rw [route?, hnowhere]
    rfl
  rw [Session.dispatch, hroute]

/-- There is nothing left to drop. -/
theorem Ended.shutdown (h : s.Ended) : s.shutdown = s := by
  obtain ⟨connectionId, config, applications, queue, registry, netStreams, connection, isClosed,
    calls⟩ := s
  obtain ⟨hclosed, hmessages, hstreams, hconnection⟩ := h
  dsimp only at hclosed hmessages hstreams hconnection
  subst hclosed hstreams hconnection
  rw [shutdown_eq]
  dsimp only
  rw [← hmessages]
  rfl

/-- The operations that make a stream, beside chunk streams. -/
def Makes (operation : Operation) : Prop :=
  operation = .createNetStream ∨ operation = .createMessageStream

theorem Ended.queueOnly {α : Type} {x : Session → α × Session} (h : s.Ended) (hx : QueueOnly x) :
    (x s).2.Ended := by
  obtain ⟨queue, hnext⟩ := hx s
  rw [hnext]
  exact ⟨h.isClosed, h.messageStreams, h.netStreams, h.connection⟩

theorem Ended.perform (h : s.Ended) (hmakes : ¬ Makes operation) :
    (s.perform operation).2.Ended := by
  cases operation with
  | createNetStream => exact absurd (.inl rfl) hmakes
  | createMessageStream => exact absurd (.inr rfl) hmakes
  | connectionId | isClosed | information | unacknowledgedBytes | writeChunkSize
  | messageStreamIds | liveChunkStreams | netStream => exact h
  | close => exact ⟨rfl, h.messageStreams, h.netStreams, h.connection⟩
  -- A removal finds nothing to remove.
  | deleteNetStream id =>
    have hnone : s.netStreams.get? id = none := h.netStream? id
    have hnext : (s.perform (.deleteNetStream id)).2 = s := by
      simp only [Session.perform, deleteNetStream, hnone]
    rw [hnext]
    exact h
  | removeMessageStream id =>
    have hnone : s.registry.streams.get? id = none := h.messageStream? id
    have hnext : (s.registry.remove id).2 = s.registry := by
      rw [Registry.remove, hnone]
      split <;> rfl
    exact ⟨h.isClosed, (congrArg Registry.streams hnext).trans h.messageStreams, h.netStreams,
      h.connection⟩
  | allocateChunkStream =>
    cases hcsid : s.registry.chunkStreamIds.allocate with
    | none =>
      have hnext : (s.perform .allocateChunkStream).2 = s := by
        simp only [Session.perform, attempt, allocateChunkStream_of_none hcsid]
      rw [hnext]
      exact h
    | some handed =>
      simp only [Session.perform, attempt, allocateChunkStream_of_some hcsid]
      exact ⟨h.isClosed, h.messageStreams, h.netStreams, h.connection⟩
  | releaseChunkStream id => exact ⟨h.isClosed, h.messageStreams, h.netStreams, h.connection⟩
  | send | sendMessage | sendControl =>
    exact h.queueOnly (queueOnly_unawaited (queueOnly_sendMessage _ _ _ _))
  | setWriteChunkSize size =>
    exact h.queueOnly (queueOnly_unawaited (queueOnly_setWriteChunkSize size))

/-- The owner makes a stream. -/
def Activity.Creates : Activity → Prop
  | .performing operation => Makes operation
  | .incoming _ | .registering _ _ _ | .requeuing _ => False

/-- No step brings anything back, and the apps hear of none. -/
theorem Ended.take (h : s.Ended) (hnew : ¬ activity.Creates) :
    (activity.take s).Ended ∧ (activity.take s).calls = s.calls := by
  cases activity with
  | performing operation => exact ⟨h.perform hnew, (operated_perform operation s).calls⟩
  | incoming payload =>
    rw [Activity.take, h.dispatch payload]
    exact ⟨h, rfl⟩
  | registering id tag handler =>
    simp only [Activity.take, h.messageStream? id]
    exact ⟨h, trivial⟩
  | requeuing queue => exact ⟨⟨h.isClosed, h.messageStreams, h.netStreams, h.connection⟩, rfl⟩

theorem Ended.run {activities : List Activity} (h : s.Ended)
    (hnew : ∀ activity ∈ activities, ¬ activity.Creates) :
    (run activities s).Ended ∧ (run activities s).calls = s.calls := by
  induction activities generalizing s with
  | nil => exact ⟨h, rfl⟩
  | cons activity activities ih =>
    rw [List.forall_mem_cons] at hnew
    obtain ⟨hstep, hcalls⟩ := h.take hnew.1
    obtain ⟨hrest, hcalls'⟩ := ih hstep hnew.2
    exact ⟨hrest, hcalls'.trans hcalls⟩

theorem Ended.run_incoming (h : s.Ended) (payloads : List Payload) :
    Session.run (payloads.map .incoming) s = s := by
  induction payloads with
  | nil => rfl
  | cons payload payloads ih =>
    have hfirst : Session.run ((payload :: payloads).map .incoming) s
        = Session.run (payloads.map .incoming) (s.dispatch payload) := rfl
    rw [hfirst, h.dispatch payload, ih]

/-- A session that is shut down has no streams and no client, and of its chunk stream ids those of
its NetStreams are free. It stays so as long as its owner makes no stream, whatever else it does and
whatever comes in: no app is called, all payloads leave the session as it is, and so does another
shutdown. -/
theorem ended_for_good (s : Session) :
    let t := s.shutdown
    t.Ended ∧ t.queue = s.queue ∧ t.calls = s.calls ∧
    (∀ csid, t.registry.chunkStreamIds.isLive csid = true ↔
      s.registry.chunkStreamIds.isLive csid = true ∧
        ∀ id stream, s.netStream? id = some stream → stream.chunkStreamId ≠ csid) ∧
    ((∀ csid, s.registry.chunkStreamIds.isLive csid = true →
        ∃ id stream, s.netStream? id = some stream ∧ stream.chunkStreamId = csid) →
      t.registry.chunkStreamIds.live = 0) ∧
    ∀ later : List Activity, (∀ activity ∈ later, ¬ activity.Creates) →
      let u := run later t
      u.Ended ∧ u.calls = s.calls ∧
        (∀ payloads : List Payload, run (payloads.map .incoming) u = u) ∧ u.shutdown = u := by
  intro t
  have hqueue : s.shutdown.queue = s.queue := by rw [shutdown_eq]
  have hcalls : s.shutdown.calls = s.calls := by rw [shutdown_eq]
  refine ⟨s.ended_shutdown, hqueue, hcalls, s.isLive_shutdown,
    fun hlive => ChunkStreamIds.live_eq_zero fun csid => ?_, fun later hnew => ?_⟩
  · refine Bool.eq_false_iff.mpr fun hleft => ?_
    obtain ⟨hbefore, hother⟩ := (s.isLive_shutdown csid).mp hleft
    obtain ⟨id, stream, hstream, hcsid⟩ := hlive csid hbefore
    exact hother id stream hstream hcsid
  · obtain ⟨hended, hquiet⟩ := s.ended_shutdown.run hnew
    exact ⟨hended, hquiet.trans hcalls, hended.run_incoming, hended.shutdown⟩

/-- The client connects and calls again, and the owner sends and asks for a chunk stream. -/
def lateActivities : List Activity :=
  [.incoming connectLive, .performing (.sendControl (.acknowledgement 7)), .incoming seekOnStream,
    .performing .allocateChunkStream, .registering 0 .audio .netConnection]

theorem ended_for_good_lateActivities :
    withStream.netStream? 1 = some ⟨1, 3⟩ ∧ withStream.connection = some liveClient ∧
      (∀ activity ∈ lateActivities, ¬ activity.Creates) ∧
      let u := run lateActivities withStream.shutdown
      u.Ended ∧ u.calls = withStream.calls ∧
        run [.incoming connectLive, .incoming seekOnStream] u = u ∧ u.shutdown = u := by
  have hnew : ∀ activity ∈ lateActivities, ¬ activity.Creates := by
    simp [lateActivities, Activity.Creates, Makes]
  obtain ⟨-, -, -, -, -, hlater⟩ := ended_for_good withStream
  obtain ⟨hended, hcalls, hincoming, hagain⟩ := hlater lateActivities hnew
  exact ⟨open_withStream, connected_withStream, hnew, hended, hcalls,
    hincoming [connectLive, seekOnStream], hagain⟩

end Session

end RtmpEndpoint
