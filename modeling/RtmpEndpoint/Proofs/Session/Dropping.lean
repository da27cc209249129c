import RtmpEndpoint.Proofs.Session.Activities

/-!
# Messages that are dropped

A message is dropped at one of three places: where its message stream is looked up, where the
handler for its type is, and where its body is read. Which messages these are depends on the streams
and handlers that are there when a message comes in. To the session it is as if they never came.
-/

namespace RtmpEndpoint.Session

variable {s : Session} {payload : Payload} {activity : Activity} {activities kept : List Activity}

/-- The session has no use for a payload. -/
inductive Dropped (s : Session) (payload : Payload) : Prop where
  | noStream (absent : s.messageStream? payload.streamId = none)
  | noHandler {stream : MessageStream} (present : s.messageStream? payload.streamId = some stream)
      (ignored : stream.handler? payload.tag = none)
  | unreadable {error : Message.DecodeError}
      (malformed : Message.decode payload.tag payload.data = .error error)

/-- A payload with a use: its stream, the handler that takes it and its message. -/
structure Taken (s : Session) (payload : Payload) (handler : Handler) (message : Message) :
    Prop where
  handled : ∃ stream, s.messageStream? payload.streamId = some stream ∧
    stream.handler? payload.tag = some handler
  read : Message.decode payload.tag payload.data = .ok message

theorem Taken.route? {handler : Handler} {message : Message}
    (h : s.Taken payload handler message) :
    s.route? payload = some (handler, ⟨payload.timestamp, payload.streamId, message⟩) := by
  obtain ⟨⟨stream, hstream, hhandler⟩, hread⟩ := h
  rw [messageStream?] at hstream
  simp [Session.route?, hstream, hhandler, hread]

theorem Dropped.route? (h : s.Dropped payload) : s.route? payload = none := by
  cases h with
  | noStream absent =>
    rw [messageStream?] at absent
    simp [Session.route?, absent]
  | noHandler present ignored =>
    rw [messageStream?] at present
    simp [Session.route?, present, ignored]
  | unreadable malformed =>
    simp [Session.route?, malformed]

/-- There are no other places. -/
theorem dropped_or_taken (s : Session) (payload : Payload) :
    s.Dropped payload ∨ ∃ handler message, s.Taken payload handler message := by
  cases hstream : s.messageStream? payload.streamId with
  | none => exact .inl (.noStream hstream)
  | some stream =>
    cases hhandler : stream.handler? payload.tag with
    | none => exact .inl (.noHandler hstream hhandler)
    | some handler =>
      cases hread : Message.decode payload.tag payload.data with
      | error error => exact .inl (.unreadable hread)
      | ok message => exact .inr ⟨handler, message, ⟨stream, hstream, hhandler⟩, hread⟩

theorem dropped_iff : s.Dropped payload ↔ s.route? payload = none := by
  constructor
  · exact Dropped.route?
  · intro hnone
    rcases s.dropped_or_taken payload with hdropped | ⟨handler, message, htaken⟩
    · exact hdropped
    · rw [htaken.route?] at hnone
      cases hnone

/-- A payload that is dropped leaves no trace. -/
theorem dispatch_of_dropped (h : s.Dropped payload) : s.dispatch payload = s := by
  rw [dispatch, h.route?]

theorem dispatch_of_taken {handler : Handler} {message : Message}
    (h : s.Taken payload handler message) : s.dispatch payload
      = (handle handler ⟨payload.timestamp, payload.streamId, message⟩ s).2 := by
  rw [dispatch, h.route?]

/-! ## Runs without them -/

/-- The second run is the first one without some of the payloads that are dropped in it. -/
inductive Thinned : Session → List Activity → List Activity → Prop where
  | nil (s : Session) : Thinned s [] []
  | keep {s : Session} {activity : Activity} {activities kept : List Activity}
      (later : Thinned (activity.take s) activities kept) :
      Thinned s (activity :: activities) (activity :: kept)
  | drop {s : Session} {payload : Payload} {activities kept : List Activity}
      (dropped : s.Dropped payload) (later : Thinned (s.dispatch payload) activities kept) :
      Thinned s (.incoming payload :: activities) kept

/-- The run goes on from the same session, so what is dropped later stays the same as well. -/
theorem Thinned.run_eq (h : Thinned s activities kept) : run kept s = run activities s := by
  induction h with
  | nil s => rfl
  | keep later ih => exact ih
  | drop dropped later ih =>
    rw [dispatch_of_dropped dropped] at ih
    rw [ih, run, run, List.foldl_cons, Activity.take, dispatch_of_dropped dropped]

/-- A payload that comes in and is dropped. -/
def Activity.isDropped (s : Session) : Activity → Bool
  | incoming payload => (s.route? payload).isNone
  | performing _ | registering .. | requeuing _ => false

theorem isDropped_iff :
    activity.isDropped s = true ↔ ∃ payload, activity = .incoming payload ∧ s.Dropped payload := by
  cases activity with
  | incoming payload => simp [Activity.isDropped, dropped_iff]
  | performing | registering | requeuing => simp [Activity.isDropped]

/-- The activities of a run without the payloads that are dropped in it. -/
def withoutDropped : List Activity → Session → List Activity
  | [], _ => []
  | activity :: activities, s =>
    let later := withoutDropped activities (activity.take s)
    if activity.isDropped s then later else activity :: later

theorem thinned_withoutDropped (activities : List Activity) (s : Session) :
    Thinned s activities (withoutDropped activities s) := by
  induction activities generalizing s with
  | nil => exact .nil s
  | cons activity activities ih =>
    rw [withoutDropped]
    split
    · next hd =>
      obtain ⟨payload, rfl, hdropped⟩ := isDropped_iff.mp hd
      exact .drop hdropped (ih _)
    · exact .keep (ih _)

/-- No payload of the run is dropped in it. -/
def NothingDropped : List Activity → Session → Prop
  | [], _ => True
  | activity :: activities, s =>
    (∀ payload, activity = .incoming payload → ¬ s.Dropped payload) ∧
      NothingDropped activities (activity.take s)

theorem nothingDropped_withoutDropped (activities : List Activity) (s : Session) :
    NothingDropped (withoutDropped activities s) s := by
  induction activities generalizing s with
  | nil => trivial
  | cons activity activities ih =>
    rw [withoutDropped]
    split
    · next hd =>
      obtain ⟨payload, rfl, hdropped⟩ := isDropped_iff.mp hd
      have hsame : (Activity.incoming payload).take s = s := dispatch_of_dropped hdropped
      rw [hsame]
      exact ih s
    · next hd =>
      refine ⟨fun payload heq hdropped => hd ?_, ih _⟩
      exact isDropped_iff.mpr ⟨payload, heq, hdropped⟩

/-- To a session it is as if the messages that it drops never came. Each one leaves it as it is:
nothing is queued, no controller is called, no stream, handler, id or connection changes. Any other
message goes to the handler for its type on its message stream. A run comes to the same without some
of the messages that are dropped in it, and without all of them there is none left that is. -/
theorem dropped_as_if_never_sent (s : Session) :
    (∀ payload, s.Dropped payload → s.dispatch payload = s) ∧
    (∀ payload, ¬ s.Dropped payload → ∃ handler message, s.Taken payload handler message ∧
      s.dispatch payload = (handle handler ⟨payload.timestamp, payload.streamId, message⟩ s).2) ∧
    ∀ activities,
      (∀ kept, Thinned s activities kept → run kept s = run activities s) ∧
      run (withoutDropped activities s) s = run activities s ∧
      Thinned s activities (withoutDropped activities s) ∧
      NothingDropped (withoutDropped activities s) s := by
  refine ⟨fun payload => dispatch_of_dropped, fun payload hnot => ?_, fun activities => ?_⟩
  · obtain ⟨handler, message, htaken⟩ := (s.dropped_or_taken payload).resolve_left hnot
    exact ⟨handler, message, htaken, dispatch_of_taken htaken⟩
  · have hthinned := thinned_withoutDropped activities s
    exact ⟨fun kept => Thinned.run_eq, hthinned.run_eq, hthinned,
      nothingDropped_withoutDropped activities s⟩

/-- A command on a message stream that is not there, video on the control stream, and a command
whose body cannot be read. Then a stream is opened. -/
def unroutable : List Activity :=
  [.incoming ⟨.zero, .amf0Command, 9, []⟩, .incoming ⟨.zero, .video, 0, []⟩,
    .incoming ⟨.zero, .amf0Command, 0, [9]⟩, .performing .createNetStream]

/-- An end of an object is no value. -/
theorem decode_endMarker :
    Message.decode .amf0Command [9] = .error (.amf0 (.unknownMarker 9)) := by
  cbv

theorem thinned_unroutable : Thinned {} unroutable [.performing .createNetStream] :=
  .drop (.noStream rfl) (.drop (.noHandler rfl rfl)
    (.drop (.unreadable decode_endMarker) (.keep (.nil _))))

theorem dropped_as_if_never_sent_unroutable :
    run [.performing .createNetStream] {} = run unroutable {} ∧
      withoutDropped unroutable {} = [.performing .createNetStream] := by
  obtain ⟨-, -, hruns⟩ := dropped_as_if_never_sent {}
  obtain ⟨hthinned, -⟩ := hruns unroutable
  refine ⟨hthinned _ thinned_unroutable, ?_⟩
  cbv

end RtmpEndpoint.Session
