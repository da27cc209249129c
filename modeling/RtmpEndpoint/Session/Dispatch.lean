import RtmpEndpoint.Session.NetStream

/-!
# Dispatch

A payload goes to the handler for its type on its message stream. One without a stream, without a
handler or without a readable body is dropped, and a handler that fails ends nothing.
-/

namespace RtmpEndpoint.Session

/-- Has a handler take a message. -/
def handle (handler : Handler) (message : Inbound) : Action Unit :=
  match handler, message.message with
  | .netConnection, .command command => connectionCommand command
  | .netConnection, _ => pure ()
  | .netStream, .command command => streamCommand message.streamId command
  | .netStream, _ => notify message
  | .custom name take, _ => fun s => (s.note (.handled name message)).runProcedure (take message)

/-- Where a payload goes, with its decoded message. -/
def route? (s : Session) (payload : Payload) : Option (Handler × Inbound) := do
  let stream ← s.registry.get? payload.streamId
  let handler ← stream.handler? payload.tag
  match Message.decode payload.tag payload.data with
  | .ok message => some (handler, ⟨payload.timestamp, payload.streamId, message⟩)
  | .error _ => none

/-- Routes a payload. -/
def dispatch (s : Session) (payload : Payload) : Session :=
  match s.route? payload with
  | some (handler, message) => (handle handler message s).2
  | none => s

end RtmpEndpoint.Session
