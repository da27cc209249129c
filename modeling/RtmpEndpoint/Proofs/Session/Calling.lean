import Mathlib
import RtmpEndpoint.Proofs.Session.Activities
import RtmpEndpoint.Proofs.Session.Connecting
import RtmpEndpoint.Proofs.Session.Keeping

/-!
# What comes of a call

A command that a session does not carry out itself is a call into the app of its client. The app is
called once, and a caller that wants an answer gets one, behind everything that the app has sent.
-/

namespace RtmpEndpoint

open Application (Operation Outcome CallError Procedure)

/-! ## Answers -/

namespace Application.Outcome

/-- What a caller that wants an answer is told, in the encoding of its call. -/
def answerTo : Outcome → Command → Command
  | returned value, command =>
    ⟨command.encoding, "_result", command.transactionId, .null, [value.getD .null]⟩
  | failed error, command =>
    ⟨command.encoding, "_error", command.transactionId, .null,
      [.status "error" error.code error.message]⟩
  | crashed, command =>
    ⟨command.encoding, "_error", command.transactionId, .null,
      [.status "error" CallError.callFailed
        (CallError.callFailed ++ ": " ++ ("Procedure '" ++ command.name ++ "' failed"))]⟩

/-- Nobody else is told anything. -/
theorem reply?_eq (outcome : Outcome) (command : Command) :
    outcome.reply? command
      = if command.transactionId.isZero then none else some (outcome.answerTo command) := by
  cases outcome <;> rfl

theorem encoding_answerTo (outcome : Outcome) (command : Command) :
    (outcome.answerTo command).encoding = command.encoding := by
  cases outcome <;> rfl

end Application.Outcome

namespace Session

variable {s : Session}

/-! ## The stream that a call came on -/

/-- The operation takes the message stream of an id away, with its NetStream or without. -/
def Closes (id : UInt32) (operation : Operation) : Prop :=
  operation = .deleteNetStream id ∨ operation = .removeMessageStream id

/-- No NetStream is opened once the stream of the id is closed. -/
def Settles (id : UInt32) (operations : List Operation) : Prop :=
  operations.Pairwise fun earlier later => Closes id earlier → later ≠ .createNetStream

namespace Slot

variable {id : UInt32} {a b c : Slot} {operation : Operation} {operations : List Operation}
  {stream : NetStream}

theorem Follows.gone (h : Follows id operations a b) (hcreate : .createNetStream ∉ operations)
    (hgone : a.netStream = none) : b.netStream = none := by
  induction h with
  | nil => exact hgone
  | cons first _ ih =>
    refine ih (List.not_mem_of_not_mem_cons hcreate) ?_
    cases first with
    | closed => exact netStream_closed ..
    | opened => exact absurd List.mem_cons_self hcreate
    | removed | added | kept => exact hgone
  | registered _ _ _ ih => exact ih hcreate hgone

/-- A NetStream that was deleted stays away. -/
theorem Follows.deleted (h : Follows id operations a b) (hsettles : Settles id operations)
    (hdelete : .deleteNetStream id ∈ operations) : b.netStream = none := by
  induction h with
  | nil => cases hdelete
  | cons first rest ih =>
    obtain ⟨hfirst, hrest⟩ := List.pairwise_cons.mp hsettles
    rcases List.mem_cons.mp hdelete with heq | hlater
    · rw [← heq] at first hfirst
      refine rest.gone (fun hmem => hfirst _ hmem (.inl rfl) rfl) ?_
      cases first with
      | closed => exact netStream_closed ..
      | kept _ _ notClosed => exact absurd rfl notClosed
    · exact ih hrest hlater
  | registered _ _ _ ih => exact ih hsettles hdelete

/-- A NetStream that is not deleted stays as it is. Its id could be handed out again only after its
message stream has been removed. -/
theorem Follows.stays (h : Follows id operations a b) (hsettles : Settles id operations)
    (hdelete : .deleteNetStream id ∉ operations) (hstream : a.netStream = some stream)
    (hstands : a.messages ≠ none ∨ .createNetStream ∉ operations) : b.netStream = some stream := by
  induction h with
  | nil => exact hstream
  | cons first rest ih =>
    obtain ⟨hfirst, hrest⟩ := List.pairwise_cons.mp hsettles
    have hlater := List.not_mem_of_not_mem_cons hdelete
    have htail := hstands.imp_right List.not_mem_of_not_mem_cons
    cases first with
    | closed => exact absurd List.mem_cons_self hdelete
    | removed => exact ih hrest hlater hstream (.inr fun hmem => hfirst _ hmem (.inr rfl) rfl)
    | opened _ _ unused =>
      rcases hstands with hstands | hcreate
      · exact absurd unused hstands
      · exact absurd List.mem_cons_self hcreate
    | added => exact ih hrest hlater hstream (.inl nofun)
    | kept => exact ih hrest hlater hstream htail
  | registered _ _ _ ih => exact ih hsettles hdelete hstream (.inl nofun)

end Slot

/-! ## Where calls come in -/

/-- Where a call comes in, and its answer goes out: the control stream or an open NetStream. -/
inductive Line where
  | control
  | netStream (stream : NetStream)

namespace Line

def handler : Line → Handler
  | control => .netConnection
  | netStream _ => .netStream

def csid : Line → UInt32
  | control => Chunk.controlStreamId
  | netStream stream => stream.chunkStreamId

def streamId : Line → UInt32
  | control => controlMessageStreamId
  | netStream stream => stream.id

/-- The commands on this line that are no calls. -/
def ownNames : Line → List String
  | control => connectionNames
  | netStream _ => streamNames

def IsOpen (s : Session) : Line → Prop
  | control => True
  | netStream stream => s.netStream? stream.id = some stream

/-- The operations take the NetStream away on which the call came. -/
def ClosedBy (operations : List Operation) : Line → Prop
  | control => False
  | netStream stream => .deleteNetStream stream.id ∈ operations

/-- No NetStream is opened once that of the call is closed. -/
def SettledBy (operations : List Operation) : Line → Prop
  | control => True
  | netStream stream => Settles stream.id operations

end Line

/-! ## Answering -/

/-- A message that could be encoded and is not too long is queued as a whole, if anything is. -/
theorem unawaited_sendMessage {csid streamId : UInt32} {timestamp : Timestamp} {message : Message}
    {tag : Message.Tag} {data : Bytes} (hcsid : Chunk.InRange csid)
    (hencode : Message.encode message = .ok (tag, data))
    (hlength : data.length ≤ Chunk.maxMessageLength) (s : Session) :
    (unawaited (sendMessage csid streamId timestamp message) s).2 = { s with
      queue := if s.queue.isOpen then s.queue.queued csid ⟨timestamp, tag, streamId, data⟩
        else s.queue.compressed csid ⟨timestamp, tag, streamId, data⟩ } := by
  have hfits : Chunk.Splitter.Fits csid ⟨timestamp, tag, streamId, data⟩ := ⟨hcsid, hlength⟩
  have hencoded : encode message s = (.ok (tag, data), s) := by rw [encode, hencode]
  have hnext : sendMessage csid streamId timestamp message s
      = onQueue (Flow.SendQueue.send csid ⟨timestamp, tag, streamId, data⟩) s := by
    rw [sendMessage, Transition.bind_ok hencoded]
  cases hopen : s.queue.isOpen with
  | true =>
    have hsend : sendMessage csid streamId timestamp message s = (.ok s.queue.messages,
        { s with queue := s.queue.queued csid ⟨timestamp, tag, streamId, data⟩ }) := by
      rw [hnext, onQueue, Transition.focus, Flow.SendQueue.send_of_fits hfits hopen]
    rw [unawaited_ok hsend, if_pos rfl]
  | false =>
    have hsend : sendMessage csid streamId timestamp message s = (.error (.send .closed),
        { s with queue := s.queue.compressed csid ⟨timestamp, tag, streamId, data⟩ }) := by
      rw [hnext, onQueue, Transition.focus, Flow.SendQueue.send_of_not_isOpen hfits hopen]
    rw [unawaited_error hsend, if_neg (by decide)]

namespace Line

variable {line : Line} {command answer : Command} {payload : Payload}

/-- How a call is answered on its line. -/
def reply (line : Line) (command : Command) (answer : Option Command) : Action Unit :=
  match line with
  | control => replyToCall command answer
  | netStream stream => replyOnStream stream.id answer

theorem reply_none (line : Line) (command : Command) (s : Session) :
    line.reply command none s = (.ok (), s) := by
  cases line <;> rfl

theorem queueOnly_reply (line : Line) (command : Command) (answer : Option Command) :
    QueueOnly (line.reply command answer) := by
  cases line with
  | control => exact queueOnly_replyToCall command answer
  | netStream stream => exact queueOnly_replyOnStream stream.id answer

theorem reply_open (hencoding : answer.encoding = command.encoding) (hopen : line.IsOpen s) :
    line.reply command (some answer) s
      = unawaited (sendMessage line.csid line.streamId .zero (.command answer)) s := by
  cases line with
  | control =>
    have hsame : { answer with encoding := command.encoding } = answer := by rw [← hencoding]
    simp only [reply, replyToCall, replyOnControl, hsame]
    rfl
  | netStream stream =>
    have hstream : s.netStream? stream.id = some stream := hopen
    simp only [reply, replyOnStream, hstream]
    rfl

theorem reply_closed {stream : NetStream} (h : s.netStream? stream.id = none)
    (answer : Option Command) :
    (netStream stream).reply command answer s = (.ok (), s) := by
  cases answer with
  | none => rfl
  | some answer => simp only [reply, replyOnStream, h]

/-- The command goes to the app, and then it is answered. -/
theorem dispatch_call {app : ConnectedApp} (hroute : s.route? payload
      = some (line.handler, ⟨payload.timestamp, line.streamId, .command command⟩))
    (hname : command.name ∉ line.ownNames) (hc : s.connection = some app) :
    s.dispatch payload = (line.reply command (s.invoke app.controller line.streamId command).1
      (s.invoke app.controller line.streamId command).2).2 := by
  cases line with
  | control =>
    have hcall : connectionCommand command = callApp command := connectionCommand_of_call hname
    simp only [dispatch, hroute, handler, handle, hcall, callApp_eq command hc]
    rfl
  | netStream stream =>
    have hcall : streamCommand stream.id command = callOnStream stream.id command :=
      streamCommand_of_call hname
    simp only [dispatch, hroute, handler, streamId, handle, hcall,
      callOnStream_eq stream.id command hc]
    rfl

theorem inRange_csid (hs : s.Grounded) (hopen : line.IsOpen s) : Chunk.InRange line.csid := by
  cases line with
  | control => exact ⟨by decide, by decide⟩
  | netStream stream =>
    obtain ⟨-, hge, hle⟩ := (hs stream.id).netStream stream hopen
    exact ⟨Nat.le_of_succ_le hge, hle⟩

/-- The line after a procedure that settles it: still open, or closed by the procedure. -/
theorem isOpen_of_follows {operations : List Operation} {t : Session}
    (hopen : line.IsOpen s) (hstands : s.messageStream? line.streamId ≠ none)
    (hsettled : line.SettledBy operations) (hclosed : ¬ line.ClosedBy operations)
    (h : Slot.Follows line.streamId operations (s.slot line.streamId) (t.slot line.streamId)) :
    line.IsOpen t := by
  cases line with
  | control => trivial
  | netStream stream => exact h.stays hsettled hclosed hopen (.inl hstands)

end Line

/-- What has a handler has a message stream. -/
theorem stands_of_route? {payload : Payload} {handler : Handler} {message : Inbound}
    (h : s.route? payload = some (handler, message)) :
    s.messageStream? message.streamId ≠ none := by
  unfold route? at h
  simp only [Option.bind_eq_bind, Option.bind_eq_some_iff] at h
  obtain ⟨stream, hstream, found, -, h⟩ := h
  split at h
  · cases h
    exact fun hnone => nomatch hstream.symm.trans hnone
  · cases h

/-- What comes of a call into the app of a client that is connected. The app is called once. A
caller that gave transaction id zero gets no answer, nor does one whose NetStream the procedure has
closed. Any other gets one answer behind everything that the procedure has sent, on the line of its
call. -/
theorem call_answered (connectionId : Nat) (config : Config)
    (applications : Application.Applications) (queue : Flow.SendQueue) (history : List Activity)
    (hreached : run history { connectionId, config, applications, queue } = s)
    {app : ConnectedApp} (hconnected : s.connection = some app)
    {line : Line} {payload : Payload} {command : Command} (hopen : line.IsOpen s)
    (hroute : s.route? payload
      = some (line.handler, ⟨payload.timestamp, line.streamId, .command command⟩))
    (hname : command.name ∉ line.ownNames)
    (hsettled : line.SettledBy (s.callOperations line.streamId command)) :
    let call := Application.Call.invoked app.controller.name line.streamId command
    let procedure := app.controller.invoke line.streamId command
    let outcome := ((s.note call).runProcedure procedure).1
    let u := ((s.note call).runProcedure procedure).2
    let t := s.dispatch payload
    t.calls = call :: s.calls ∧
    (command.transactionId.isZero = true → t = u) ∧
    (line.ClosedBy (s.callOperations line.streamId command) → t = u) ∧
    (command.transactionId.isZero = false →
      ¬ line.ClosedBy (s.callOperations line.streamId command) →
      ∀ tag data, Message.encode (.command (outcome.answerTo command)) = .ok (tag, data) →
        data.length ≤ Chunk.maxMessageLength →
        t = { u with queue :=
          if u.queue.isOpen then u.queue.queued line.csid ⟨.zero, tag, line.streamId, data⟩
          else u.queue.compressed line.csid ⟨.zero, tag, line.streamId, data⟩ }) := by
  intro call procedure outcome u t
  have hs : s.Grounded := hreached ▸ grounded_run (grounded_new _ _ _ _) history
  have hoperations : s.callOperations line.streamId command
      = performed procedure (s.note call) := by
    simp only [callOperations, hconnected]
    rfl
  rw [hoperations] at hsettled ⊢
  have hfollows := follows_runProcedure line.streamId procedure (s.note call)
  have ht : t = (line.reply command (outcome.reply? command) u).2 :=
    Line.dispatch_call hroute hname hconnected
  -- A procedure calls nothing into the app that it belongs to.
  have hcalls : u.calls = call :: s.calls := (operated_runProcedure procedure (s.note call)).calls
  rw [Outcome.reply?_eq] at ht
  refine ⟨?_, fun hzero => ?_, fun hclosed => ?_, fun hzero hclosed tag data hencode hlength => ?_⟩
  · rw [ht, ((line.queueOnly_reply command _).operated _).calls, hcalls]
  · rw [ht, if_pos hzero, line.reply_none]
  · cases line with
    | control => exact hclosed.elim
    | netStream stream =>
      have hgone : u.netStream? stream.id = none := hfollows.deleted hsettled hclosed
      rw [ht, Line.reply_closed hgone]
  · have hstill := Line.isOpen_of_follows hopen (stands_of_route? hroute) hsettled hclosed hfollows
    have hnonzero : ¬ command.transactionId.isZero = true := by simp [hzero]
    rw [ht, if_neg hnonzero, Line.reply_open (outcome.encoding_answerTo command) hstill,
      unawaited_sendMessage (Line.inRange_csid hs hopen) hencode hlength]

/-- A client of live with one NetStream. -/
def withStream : Session :=
  run [.incoming connectLive, .performing .createNetStream] (newSession {})

/-- The server knows no such procedure. -/
def seek : Command := ⟨.amf3, "seek", ⟨0x7ff8000000000001⟩, .null, []⟩

def seekOnStream : Payload :=
  ⟨.zero, .amf3Command, 1, [0, 2, 0, 4, 115, 101, 101, 107, 0, 0x7f, 0xf8, 0, 0, 0, 0, 0, 1, 5]⟩

/-- The answer to a call whose transaction id is not a number. -/
def seekAnswer : Bytes :=
  [0, 2, 0, 6, 95, 101, 114, 114, 111, 114, 0, 0x7f, 0xf8, 0, 0, 0, 0, 0, 1, 5, 3,
    0, 4, 99, 111, 100, 101, 2, 0, 25, 78, 101, 116, 67, 111, 110, 110, 101, 99, 116, 105, 111, 110,
    46, 67, 97, 108, 108, 46, 70, 97, 105, 108, 101, 100,
    0, 11, 100, 101, 115, 99, 114, 105, 112, 116, 105, 111, 110, 2, 0, 25, 78, 111, 32, 112, 114,
    111, 99, 101, 100, 117, 114, 101, 32, 110, 97, 109, 101, 100, 32, 39, 115, 101, 101, 107, 39,
    0, 5, 108, 101, 118, 101, 108, 2, 0, 5, 101, 114, 114, 111, 114, 0, 0, 9]

theorem connected_withStream : withStream.connection = some liveClient := by cbv

theorem open_withStream : withStream.netStream? 1 = some ⟨1, 3⟩ := by cbv

theorem stands_withStream : withStream.messageStream? 1 = some (.forNetStream 1) := by cbv

theorem decode_seekOnStream :
    Message.decode seekOnStream.tag seekOnStream.data = .ok (.command seek) := by cbv

theorem encode_seekAnswer :
    Message.encode (.command ((Outcome.failed (.unknownProcedure "seek")).answerTo seek))
      = .ok (.amf3Command, seekAnswer) := by
  have hdescription :
      (CallError.unknownProcedure "seek").message = "No procedure named 'seek'" := by
    decide
  simp only [Outcome.answerTo, CallError.code, hdescription]
  decide

theorem call_answered_seek :
    let call := Application.Call.invoked "accept all" 1 seek
    let u := withStream.note call
    let t := withStream.dispatch seekOnStream
    withStream.connection = some liveClient ∧ withStream.netStream? 1 = some ⟨1, 3⟩ ∧
      withStream.route? seekOnStream = some (.netStream, ⟨.zero, 1, .command seek⟩) ∧
      seek.name ∉ streamNames ∧ Settles 1 (withStream.callOperations 1 seek) ∧
      t.calls = call :: withStream.calls ∧
      t = { u with queue :=
                    if u.queue.isOpen then u.queue.queued 3 ⟨.zero, .amf3Command, 1, seekAnswer⟩
                    else u.queue.compressed 3 ⟨.zero, .amf3Command, 1, seekAnswer⟩ } := by
  intro call u t
  have hroute : withStream.route? seekOnStream
      = some (.netStream, ⟨.zero, 1, .command seek⟩) := by
    have hstands : withStream.registry.get? seekOnStream.streamId = some (.forNetStream 1) :=
      stands_withStream
    simp only [route?, hstands, decode_seekOnStream]
    rfl
  have hname : seek.name ∉ streamNames := by decide
  have hnone : withStream.callOperations 1 seek = [] := by
    simp only [callOperations, connected_withStream]
    rfl
  have hsettled : Settles 1 (withStream.callOperations 1 seek) := by
    rw [hnone]
    exact .nil
  have hopen : (Line.netStream ⟨1, 3⟩).IsOpen withStream := open_withStream
  obtain ⟨hcalls, -, -, hanswered⟩ :=
    call_answered 1 {} liveApp {} _ rfl connected_withStream hopen hroute hname hsettled
  have hquiet : ¬ (Line.netStream ⟨1, 3⟩).ClosedBy (withStream.callOperations 1 seek) := by
    rw [hnone]
    exact List.not_mem_nil
  exact ⟨connected_withStream, open_withStream, hroute, hname, hsettled, hcalls,
    hanswered (by decide) hquiet .amf3Command seekAnswer encode_seekAnswer (by decide)⟩

end Session

end RtmpEndpoint
