import RtmpEndpoint.Session.NetConnection

/-!
# NetStream messages

What arrives on the message stream of a NetStream. `closeStream` and `deleteStream` close it, other
commands are calls into the app, and media and data are handed to the app as they come.
-/

namespace RtmpEndpoint.Session

/-- Hands a message that is no command to the controller of the app. -/
def notify (message : Inbound) : Action Unit := fun s =>
  match s.connection with
  | none => (.ok (), s)
  | some app =>
    let s := s.note (.notified app.controller.name message.streamId message)
    (.ok (), (s.runProcedure (app.controller.onStreamMessage message.streamId message)).2)

/-- Calls into the app. The procedure may close the stream that it was called on, and then there is
no reply. -/
def callOnStream (streamId : UInt32) (command : Command) : Action Unit := fun s =>
  match s.connection with
  | none => (.ok (), s)
  | some app =>
    match s.invoke app.controller streamId command with
    | (none, s) => (.ok (), s)
    | (some reply, s) =>
      match s.netStream? streamId with
      | none => (.ok (), s)
      | some stream =>
        let answer : Action Unit := do
          let _ ← sendOn stream .zero (.command reply)
        answer s

/-- Carries out a command on a NetStream. -/
def streamCommand (streamId : UInt32) (command : Command) : Action Unit :=
  match command.name with
  | "closeStream" => Transition.update fun s => (s.deleteNetStream streamId).2
  | "deleteStream" =>
    let target := (streamIdOf? command.arguments).getD streamId
    Transition.update fun s => (s.deleteNetStream target).2
  | _ => callOnStream streamId command

end RtmpEndpoint.Session
