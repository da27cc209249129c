import RtmpEndpoint.Proofs.Session.Calling
import RtmpEndpoint.Proofs.Session.Creating

/-!
# Where the answer to a call goes

A call that comes on a NetStream is answered on the NetStream that has its id when the procedure is
done. That is another one if the procedure closes the stream of the call and the next stream that it
opens gets the id again.
-/

namespace RtmpEndpoint.Session

open Application (Operation Outcome Procedure)

variable {α : Type} {s t : Session} {id : UInt32} {stream now : NetStream}

/-! ## The streams that a procedure opens -/

/-- The NetStream that an operation has opened, by what it was answered. -/
def opened? : (operation : Operation) → operation.Answer → Option NetStream
  | .createNetStream, answer => Except.toOption (answer : Except SessionError NetStream)
  | _, _ => none

/-- The NetStreams that a procedure opens, in their order. Some may be closed again. -/
def openedBy : Procedure α → Session → List NetStream
  | .done _, _ => []
  | .perform operation next, s =>
    let (answer, t) := s.perform operation
    (opened? operation answer).toList ++ openedBy (next answer) t

theorem openedBy_perform (operation : Operation) (next : operation.Answer → Procedure α)
    (s : Session) : openedBy (.perform operation next) s
      = (opened? operation (s.perform operation).1).toList
        ++ openedBy (next (s.perform operation).1) (s.perform operation).2 := rfl

/-- A NetStream under an id was there before, or was opened and given the id. -/
theorem netStream?_createNetStream (h : (createNetStream s).2.netStream? id = some now) :
    s.netStream? id = some now ∨ now.id = id ∧ (createNetStream s).1 = .ok now := by
  rcases createNetStream_cases s with
    ⟨-, hcreate⟩ | ⟨-, -, t, hcreate, hsame⟩ | ⟨-, -, stream, t, hcreate, hopened⟩
  · rw [hcreate] at h
    exact .inl h
  · rw [hcreate] at h
    exact .inl ((hsame.netStreams id).symm.trans h)
  · rw [hcreate] at h ⊢
    have hentry := (hopened.netStreams id).symm.trans h
    split at hentry
    · next heq =>
      cases hentry
      exact .inr ⟨heq, rfl⟩
    · exact .inl hentry

/-- Only opening a NetStream puts one under an id. -/
theorem Slot.Moves.netStream {operation : Operation} {a b : Slot}
    (h : Slot.Moves id operation a b) (hcreate : operation ≠ .createNetStream)
    (hnow : b.netStream = some now) : a.netStream = some now := by
  cases h with
  | closed =>
    rw [Slot.netStream_closed] at hnow
    cases hnow
  | opened => exact absurd rfl hcreate
  | removed | added | kept => exact hnow

theorem netStream?_perform (operation : Operation)
    (h : (s.perform operation).2.netStream? id = some now) :
    s.netStream? id = some now ∨
      now.id = id ∧ opened? operation (s.perform operation).1 = some now := by
  by_cases hcreate : operation = .createNetStream
  · subst hcreate
    refine (netStream?_createNetStream h).imp_right fun ⟨hid, hopened⟩ => ⟨hid, ?_⟩
    exact congrArg Except.toOption hopened
  · exact .inl ((moves_perform id operation s).netStream hcreate h)

/-- What stands under an id after a procedure stood there before or was opened by it. -/
theorem netStream?_runProcedure (procedure : Procedure α) (s : Session)
    (h : (s.runProcedure procedure).2.netStream? id = some now) :
    s.netStream? id = some now ∨ now.id = id ∧ now ∈ openedBy procedure s := by
  induction procedure generalizing s with
  | done value => exact .inl h
  | perform operation next ih =>
    rw [openedBy_perform]
    rcases ih _ _ h with hbefore | ⟨hid, hlater⟩
    · refine (netStream?_perform operation hbefore).imp_right fun ⟨hid, hopened⟩ => ⟨hid, ?_⟩
      rw [hopened]
      exact List.mem_append_left _ (.head _)
    · exact .inr ⟨hid, List.mem_append_right _ hlater⟩

/-! ## The answer -/

/-- Answers on the NetStream that stands under the id. -/
theorem replyOnStream_some (h : s.netStream? id = some now) (answer : Command) :
    (replyOnStream id (some answer) s).2
      = (unawaited (sendOn now .zero (.command answer)) s).2 := by
  simp only [replyOnStream, h]

/-- The answer to a call goes out on the NetStream that has the id of the call when the procedure is
done, and if there is none, it does not go out. The NetStream is that of the call, or one that the
procedure has opened. So if no stream that the procedure opens gets the id of the call, the call is
answered on its own stream or not at all. -/
theorem answered_on_stream {app : ConnectedApp} {payload : Payload} {command : Command}
    (hconnected : s.connection = some app) (hopen : s.netStream? stream.id = some stream)
    (hroute : s.route? payload
      = some (.netStream, ⟨payload.timestamp, stream.id, .command command⟩))
    (hname : command.name ∉ streamNames) :
    let called := s.note (.invoked app.controller.name stream.id command)
    let procedure := app.controller.invoke stream.id command
    let answer? := (called.runProcedure procedure).1.reply? command
    let u := (called.runProcedure procedure).2
    let t := s.dispatch payload
    (answer? = none ∨ u.netStream? stream.id = none → t = u) ∧
    (∀ answer now, answer? = some answer → u.netStream? stream.id = some now →
      t = (unawaited (sendMessage now.chunkStreamId stream.id .zero (.command answer)) u).2 ∧
        (now = stream ∨ now.id = stream.id ∧ now ∈ openedBy procedure called)) ∧
    ((∀ other ∈ openedBy procedure called, other.id ≠ stream.id) →
      t = u ∨ ∃ answer, answer? = some answer ∧
        t = (unawaited
          (sendMessage stream.chunkStreamId stream.id .zero (.command answer)) u).2) := by
  intro called procedure answer? u t
  have ht : t = ((Line.netStream stream).reply command answer? u).2 :=
    Line.dispatch_call hroute hname hconnected
  have hnow (now : NetStream) (h : u.netStream? stream.id = some now) :
      now = stream ∨ now.id = stream.id ∧ now ∈ openedBy procedure called := by
    refine (netStream?_runProcedure procedure called h).imp_left fun hbefore => ?_
    have hbefore : s.netStream? stream.id = some now := hbefore
    exact Option.some.inj (hbefore.symm.trans hopen)
  have hquiet : answer? = none ∨ u.netStream? stream.id = none → t = u := by
    rintro (hnone | hgone)
    · rw [ht, hnone]
      rfl
    · rw [ht, Line.reply_closed hgone]
  have hsent (answer : Command) (now : NetStream) (hanswer : answer? = some answer)
      (h : u.netStream? stream.id = some now) :
      t = (unawaited (sendMessage now.chunkStreamId stream.id .zero (.command answer)) u).2 := by
    have hid : now.id = stream.id := by
      rcases hnow now h with rfl | ⟨hid, -⟩
      · rfl
      · exact hid
    have hreply : (Line.netStream stream).reply command (some answer)
        = replyOnStream stream.id (some answer) := rfl
    rw [ht, hanswer, hreply, replyOnStream_some h, sendOn, hid]
  refine ⟨hquiet, fun answer now hanswer h => ⟨hsent answer now hanswer h, hnow now h⟩,
    fun hothers => ?_⟩
  cases hanswer : answer? with
  | none => exact .inl (hquiet (.inl hanswer))
  | some answer =>
    cases h : u.netStream? stream.id with
    | none => exact .inl (hquiet (.inr h))
    | some now =>
      refine .inr ⟨answer, rfl, ?_⟩
      rcases hnow now h with rfl | ⟨hid, hmem⟩
      · exact hsent answer now hanswer h
      · exact absurd hid (hothers now hmem)

/-- An app whose procedures open a NetStream. One of them closes its own before that. -/
def restarting : Application.Controller where
  name := "restarting"
  invoke streamId command :=
    if command.name = "restart" then do
      let _ ← Procedure.deleteNetStream streamId
      let _ ← Procedure.createNetStream
      return .returned none
    else do
      let _ ← Procedure.createNetStream
      return .returned none

def restartingClient : ConnectedApp :=
  ⟨⟨"live", none, none, .zero, [("app", .text "live")]⟩, restarting⟩

/-- A client of that app with one NetStream. -/
def withRestarting : Session :=
  run [.incoming connectLive, .performing .createNetStream]
    { applications := ({} : Application.Applications).register "live" restarting }

def restart : Command := ⟨.amf0, "restart", ⟨0x3ff0000000000000⟩, .null, []⟩

def restartOnStream : Payload :=
  ⟨.zero, .amf0Command, 1,
    [2, 0, 7, 114, 101, 115, 116, 97, 114, 116, 0, 63, 240, 0, 0, 0, 0, 0, 0, 5]⟩

theorem connected_withRestarting : withRestarting.connection = some restartingClient := by cbv

theorem open_withRestarting : withRestarting.netStream? 1 = some ⟨1, 3⟩ := by cbv

theorem stands_withRestarting : withRestarting.messageStream? 1 = some (.forNetStream 1) := by cbv

theorem ran_seek :
    let ran := (withRestarting.note (.invoked "restarting" 1 seek)).runProcedure
      (restarting.invoke 1 seek)
    ran.1 = .returned none ∧ ran.2.netStream? 1 = some ⟨1, 3⟩ := by
  refine ⟨?_, ?_⟩
  · cbv
  · cbv

/-- The procedure opens another stream, and the call is answered on its own. -/
theorem answered_on_stream_seek :
    let called := withRestarting.note (.invoked "restarting" 1 seek)
    let u := (called.runProcedure (restarting.invoke 1 seek)).2
    withRestarting.connection = some restartingClient ∧
      withRestarting.netStream? 1 = some ⟨1, 3⟩ ∧
      withRestarting.route? seekOnStream = some (.netStream, ⟨.zero, 1, .command seek⟩) ∧
      seek.name ∉ streamNames ∧ openedBy (restarting.invoke 1 seek) called = [⟨2, 4⟩] ∧
      withRestarting.dispatch seekOnStream = (unawaited (sendMessage 3 1 .zero
        (.command ((Outcome.returned none).answerTo seek))) u).2 := by
  intro called u
  have hroute : withRestarting.route? seekOnStream
      = some (.netStream, ⟨.zero, 1, .command seek⟩) := by
    have hstands : withRestarting.registry.get? seekOnStream.streamId = some (.forNetStream 1) :=
      stands_withRestarting
    simp only [route?, hstands, decode_seekOnStream]
    rfl
  have hname : seek.name ∉ streamNames := by decide
  have hopened : openedBy (restarting.invoke 1 seek) called = [⟨2, 4⟩] := by cbv
  have hstream : withRestarting.netStream? (⟨1, 3⟩ : NetStream).id = some ⟨1, 3⟩ :=
    open_withRestarting
  obtain ⟨-, hanswered, -⟩ :=
    answered_on_stream connected_withRestarting hstream hroute hname
  obtain ⟨houtcome, hstill⟩ := ran_seek
  have hanswer : (called.runProcedure (restarting.invoke 1 seek)).1.reply? seek
      = some ((Outcome.returned none).answerTo seek) := by
    rw [houtcome, Outcome.reply?_eq]
    rfl
  obtain ⟨hsent, -⟩ := hanswered _ ⟨1, 3⟩ hanswer hstill
  exact ⟨connected_withRestarting, open_withRestarting, hroute, hname, hopened, hsent⟩

/-- The procedure closes the stream of the call and opens another one, which gets its id. The answer
is one chunk of that one's chunk stream. -/
theorem answered_on_another :
    let called := withRestarting.note (.invoked "restarting" 1 restart)
    let u := (called.runProcedure (restarting.invoke 1 restart)).2
    let t := withRestarting.dispatch restartOnStream
    withRestarting.netStream? 1 = some ⟨1, 3⟩ ∧
      withRestarting.route? restartOnStream = some (.netStream, ⟨.zero, 1, .command restart⟩) ∧
      openedBy (restarting.invoke 1 restart) called = [⟨1, 4⟩] ∧
      t.netStream? 1 = some ⟨1, 4⟩ ∧
      (t.queue.chunks.drop u.queue.chunks.length).map (·.bytes.take 12)
        = [[4, 0, 0, 0, 0, 0, 21, 20, 1, 0, 0, 0]] := by
  refine ⟨open_withRestarting, ?_, by cbv, by cbv, by cbv⟩
  have hstands : withRestarting.registry.get? restartOnStream.streamId
      = some (.forNetStream 1) := stands_withRestarting
  have hdecode : Message.decode restartOnStream.tag restartOnStream.data
      = .ok (.command restart) := by cbv
  simp only [route?, hstands, hdecode]
  rfl

end RtmpEndpoint.Session
