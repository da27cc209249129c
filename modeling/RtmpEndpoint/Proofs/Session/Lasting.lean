import RtmpEndpoint.Proofs.Session.Activities

/-!
# Message streams that last

A message stream stays until it is removed. But a NetStream whose message stream was removed is
still there under its id, and the id is used again. Deleting that NetStream then takes the message
stream that has come to stand under its id.
-/

namespace RtmpEndpoint.Session

open Application (Operation)

variable {id : UInt32} {s t : Session}

namespace Slot

variable {a b : Slot} {operation : Operation} {operations : List Operation}
  {stream : MessageStream}

/-- Without a NetStream beside it, or without a deletion of its id, a message stream is left
alone. -/
theorem Moves.spares (h : Moves id operation a b) (hstands : a.messages = some stream)
    (hremove : operation ≠ .removeMessageStream id)
    (hsafe : a.netStream = none ∨ operation ≠ .deleteNetStream id) : b = a := by
  cases h with
  | closed =>
    rcases hsafe with hnone | hdelete
    · exact closed_of_none hnone
    · exact absurd rfl hdelete
  | removed => exact absurd rfl hremove
  | opened _ _ unused => cases hstands.symm.trans unused
  | added _ unused => cases hstands.symm.trans unused
  | kept => rfl

/-- The message stream stays with its handlers. More of them may have been registered. -/
theorem Follows.lasts (h : Follows id operations a b) (hstands : a.messages = some stream)
    (hremove : .removeMessageStream id ∉ operations)
    (hsafe : a.netStream = none ∨ .deleteNetStream id ∉ operations) :
    b.netStream = a.netStream ∧ ∃ more, b.messages = some ⟨stream.id, more ++ stream.handlers⟩ := by
  induction h generalizing stream with
  | nil a => exact ⟨rfl, [], hstands⟩
  | cons first _ ih =>
    have hfirst := first.spares hstands (List.ne_of_not_mem_cons hremove).symm
      (hsafe.imp_right fun hdelete => (List.ne_of_not_mem_cons hdelete).symm)
    rw [hfirst] at ih
    exact ih hstands (List.not_mem_of_not_mem_cons hremove)
      (hsafe.imp_right List.not_mem_of_not_mem_cons)
  | registered handlers present _ ih =>
    cases hstands.symm.trans present
    obtain ⟨hstream, more, hmessages⟩ := ih rfl hremove hsafe
    exact ⟨hstream, more ++ handlers, hmessages.trans (by rw [List.append_assoc])⟩

/-- Only the removal of its message stream leaves a NetStream on its own. -/
theorem Follows.paired (h : Follows id operations a b)
    (hremove : .removeMessageStream id ∉ operations)
    (ha : a.messages = none → a.netStream = none) : b.messages = none → b.netStream = none := by
  induction h with
  | nil a => exact ha
  | cons first _ ih =>
    refine ih (List.not_mem_of_not_mem_cons hremove) ?_
    cases first with
    | closed => exact fun _ => netStream_closed ..
    | removed => exact absurd List.mem_cons_self hremove
    | opened => nofun
    | added => nofun
    | kept => exact ha
  | registered handlers present _ ih => exact ih hremove nofun

/-- A deletion takes the message stream together with a NetStream under the same id. -/
theorem Follows.closes (h : Follows id operations a b)
    (hdelete : operations = [.deleteNetStream id]) (hid : id ≠ controlMessageStreamId)
    (hstream : a.netStream ≠ none) : b.messages = none := by
  induction h with
  | nil => cases hdelete
  | cons first rest ih =>
    cases hdelete
    cases first with
    | closed =>
      cases rest with
      | nil => exact messages_closed hid hstream
      | registered _ present => cases (messages_closed hid hstream).symm.trans present
    | kept _ _ notClosed => exact absurd rfl notClosed
  | registered _ _ _ ih => exact ih hdelete hstream

end Slot

/-- A new message stream has no handlers. A NetStream that was there under its id stays there. -/
theorem slot_of_created (hs : s.Grounded) (h : createMessageStream s = (.ok id, t)) :
    id ≠ controlMessageStreamId ∧ t.slot id = ⟨some ⟨id, []⟩, s.netStream? id⟩ := by
  obtain ⟨hstreams, hunused, hget⟩ := slot_addMessageStream h id
  refine ⟨fun hcontrol => (hs id).control hcontrol hunused, ?_⟩
  rw [if_pos rfl] at hget
  rw [slot, hget, netStream?, hstreams]
  rfl

theorem grounded_created (hs : s.Grounded) (h : createMessageStream s = (.ok id, t)) :
    t.Grounded := by
  have hnext : (Activity.performing .createMessageStream).take s = t := congrArg Prod.snd h
  rw [← hnext]
  exact grounded_take hs (.performing .createMessageStream)

/-- A NetStream stands under the id of a new message stream only after a removal. -/
theorem removed_of_stale {activities : List Activity} (hs : s.Grounded)
    (hfresh : s.netStream? id = none)
    (hnew : createMessageStream (run activities s) = (.ok id, t))
    (hstale : t.netStream? id ≠ none) : .removeMessageStream id ∈ carriedOut activities s := by
  refine Classical.byContradiction fun hremove => hstale ?_
  have hpaired := (follows_run hs activities id).paired hremove fun _ => hfresh
  have hslot := (slot_of_created (grounded_run hs activities) hnew).2
  have hunused := (slot_addMessageStream hnew id).2.1
  exact (congrArg Slot.netStream hslot).trans (hpaired hunused)

/-- What one part of a run finds under the id lasts through the next part. -/
theorem handlers_kept {stream : MessageStream} {setup later : List Activity} (hs : s.Grounded)
    (hstands : s.messageStream? id = some stream)
    (hremove : .removeMessageStream id ∉ carriedOut (setup ++ later) s)
    (hsafe : s.netStream? id = none ∨ .deleteNetStream id ∉ carriedOut (setup ++ later) s) :
    (run (setup ++ later) s).netStream? id = s.netStream? id ∧ ∃ handlers more,
      (run setup s).messageStream? id = some ⟨stream.id, handlers⟩ ∧
        (run (setup ++ later) s).messageStream? id = some ⟨stream.id, more ++ handlers⟩ := by
  rw [carriedOut_append, List.mem_append, not_or] at hremove hsafe
  have hfirst := (follows_run hs setup id).lasts hstands hremove.1 (hsafe.imp_right And.left)
  obtain ⟨hstream, handlers, hmessages⟩ := hfirst
  have hsecond := (follows_run (grounded_run hs setup) later id).lasts hmessages hremove.2
    (hsafe.imp hstream.trans And.right)
  obtain ⟨hstream', more, hmessages'⟩ := hsecond
  rw [run_append]
  exact ⟨hstream'.trans hstream, _, more, hmessages, hmessages'⟩

/-- What becomes of a message stream that was created, in every run without its removal. It stays
under its id and keeps the handlers that are registered on it, unless a NetStream was there under
that id and the id is deleted: then the first deletion takes the message stream. That takes a
history in which the message stream of a NetStream was removed. -/
theorem message_stream_until_deleted (connectionId : Nat) (config : Config)
    (applications : Application.Applications) (queue : Flow.SendQueue)
    (history setup later : List Activity) (hnew : createMessageStream
      (run history { connectionId, config, applications, queue }) = (.ok id, t))
    (hremove : .removeMessageStream id ∉ carriedOut (setup ++ later) t) :
    let u := run (setup ++ later) t
    (t.netStream? id = none ∨ .deleteNetStream id ∉ carriedOut (setup ++ later) t →
      ∃ handlers more, (run setup t).messageStream? id = some ⟨id, handlers⟩ ∧
        u.messageStream? id = some ⟨id, more ++ handlers⟩) ∧
    (t.netStream? id ≠ none → .deleteNetStream id ∉ carriedOut (setup ++ later) t →
      ∀ last : Activity, last.operations u = [.deleteNetStream id] →
        (last.take u).messageStream? id = none) ∧
    (t.netStream? id ≠ none → .removeMessageStream id ∈
      carriedOut history { connectionId, config, applications, queue }) := by
  intro u
  have hground := grounded_new connectionId config applications queue
  have hs := grounded_run hground history
  have ht := grounded_created hs hnew
  obtain ⟨hid, hslot⟩ := slot_of_created hs hnew
  have hstands : t.messageStream? id = some ⟨id, []⟩ := congrArg Slot.messages hslot
  refine ⟨fun hsafe => (handlers_kept ht hstands hremove hsafe).2,
    fun hstale hdelete last hlast => ?_, removed_of_stale hground rfl hnew⟩
  have hstill : u.netStream? id ≠ none := by
    rw [(handlers_kept ht hstands hremove (.inr hdelete)).1]
    exact hstale
  exact (follows_take (grounded_run ht _) last id).closes hlast hid hstill

/-- A handler that takes everything. -/
def keeper : Handler := .custom "keeper" fun _ => pure (.ok ())

/-- Stream 1 is a NetStream, stream 2 a message stream of the owner. -/
def withBoth : Session :=
  (createMessageStream (run [.performing .createNetStream] {})).2

def keeping : List Activity := [.registering 2 .audio keeper]

def deleting : List Activity :=
  [.performing (.deleteNetStream 2), .performing (.deleteNetStream 1), .performing .createNetStream]

theorem message_stream_until_deleted_keeping :
    createMessageStream (run [.performing .createNetStream] {}) = (.ok 2, withBoth) ∧
      .removeMessageStream 2 ∉ carriedOut (keeping ++ deleting) withBoth ∧
      withBoth.netStream? 2 = none ∧
      ∃ more, (run (keeping ++ deleting) withBoth).messageStream? 2
        = some ⟨2, more ++ [(.audio, keeper)]⟩ := by
  have hanswer : (createMessageStream (run [.performing .createNetStream] {})).1 = .ok 2 := by cbv
  have hnew : createMessageStream (run [.performing .createNetStream] {}) = (.ok 2, withBoth) :=
    Prod.ext hanswer rfl
  have hremove : .removeMessageStream 2 ∉ carriedOut (keeping ++ deleting) withBoth := by
    simp [keeping, deleting, carriedOut, Activity.operations]
  have hfresh : withBoth.netStream? 2 = none := by cbv
  have hsetup : (run keeping withBoth).messageStream? 2 = some ⟨2, [(.audio, keeper)]⟩ := by cbv
  obtain ⟨hlasts, -, -⟩ := message_stream_until_deleted 1 {} {} {} _ keeping deleting hnew hremove
  obtain ⟨handlers, more, hstands, hstill⟩ := hlasts (.inl hfresh)
  cases hstands.symm.trans hsetup
  exact ⟨hnew, hremove, hfresh, more, hstill⟩

/-- A NetStream was opened and its message stream removed, and the id was used again. -/
def withStale : Session :=
  (createMessageStream
    (run [.performing .createNetStream, .performing (.removeMessageStream 1)] {})).2

/-- The peer deletes stream 1. -/
def deleteOne : Payload :=
  ⟨.zero, .amf0Command, 0,
    [2, 0, 12, 100, 101, 108, 101, 116, 101, 83, 116, 114, 101, 97, 109,
      0, 0, 0, 0, 0, 0, 0, 0, 0, 5, 0, 63, 240, 0, 0, 0, 0, 0, 0]⟩

/-- A new message stream is gone after a deletion, by the owner or by the peer, that nobody meant
for it. -/
theorem message_stream_deleted :
    createMessageStream (run [.performing .createNetStream, .performing (.removeMessageStream 1)] {})
        = (.ok 1, withStale) ∧
      withStale.messageStream? 1 = some ⟨1, []⟩ ∧
      ∀ deletion ∈ [Activity.performing (.deleteNetStream 1), .incoming deleteOne],
        .removeMessageStream 1 ∉ carriedOut [deletion] withStale ∧
          (run [deletion] withStale).messageStream? 1 = none := by
  have hanswer : (createMessageStream
      (run [.performing .createNetStream, .performing (.removeMessageStream 1)] {})).1 = .ok 1 := by
    cbv
  have hpeer : withStale.dispatchOperations deleteOne = [.deleteNetStream 1] := by cbv
  refine ⟨Prod.ext hanswer rfl, by cbv, fun deletion hmem => ?_⟩
  simp only [List.mem_cons, List.not_mem_nil, or_false] at hmem
  rcases hmem with rfl | rfl
  · exact ⟨by simp [carriedOut, Activity.operations], by cbv⟩
  · exact ⟨by simp [carriedOut, Activity.operations, hpeer], by cbv⟩

end RtmpEndpoint.Session
