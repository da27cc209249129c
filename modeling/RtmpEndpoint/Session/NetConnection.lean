import RtmpEndpoint.Session.Basic

/-!
# Connection commands

The commands on message stream 0: `connect`, `createStream`, `deleteStream`, `close`, and calls
into the connected app. Replies go out on the control chunk stream.
-/

namespace RtmpEndpoint.Session

/-- Replies in the encoding of the request. -/
def replyOnControl (request reply : Command) : Action Unit := do
  let _ ← sendControl (.command { reply with encoding := request.encoding })

/-- A number as a stream id: truncated, and held to the range of ids. -/
def streamIdOf? (arguments : List Amf0.Value) : Option UInt32 :=
  (arguments.head?.bind (·.asNumber?)).map (·.toUInt32)

/-- What is announced to a client that has connected. -/
def announce (config : Config) : Action Unit := do
  let _ ← sendControl (.windowAcknowledgementSize config.windowAckSize)
  let _ ← sendControl (.setPeerBandwidth config.peerBandwidth .dynamic)
  let _ ← setWriteChunkSize config.chunkSize

/-- The reply to a `connect` that succeeded. -/
def connectResult (config : Config) (objectEncoding transactionId : Binary64) : Command :=
  let properties := Amf0.Properties.ofList
    [("fmsVer", .text config.fmsVersion), ("capabilities", .number (.ofNat 31)),
      ("mode", .number (.ofNat 1))]
  let status := Amf0.Value.status "status" "NetConnection.Connect.Success"
    "Connection succeeded."
  let status := (status.asObject?.getD []).insert "objectEncoding" (.number objectEncoding)
  .result transactionId (.object properties) (.object status)

/-- Connects to an app once. A client that names none, or one that is not served, is turned away by
closing the session. -/
def connect (command : Command) : Action Unit := fun s =>
  if s.connection.isSome then
    replyOnControl command
      (.error command.transactionId "NetConnection.Connect.Rejected"
        "Connection already established") s
  else match ConnectionInformation.ofCommandObject? command.object with
    | none => (.ok (), s.close)
    | some information =>
      match s.applications.get? information.app with
      | none => (.ok (), s.close)
      | some controller =>
        let s := { s with connection := some ⟨information, controller⟩ }
        let welcome : Action Unit := do
          announce s.config
          replyOnControl command
            (connectResult s.config information.objectEncoding command.transactionId)
        welcome s

/-- The status code of a `createStream` that failed. -/
def createStreamFailed : String := "NetConnection.CreateStream.Failed"

def createStream (command : Command) : Action Unit := fun s =>
  if s.connection.isNone then
    replyOnControl command
      (.error command.transactionId createStreamFailed "Not connected") s
  else match createNetStream s with
    | (.ok stream, s) =>
      replyOnControl command
        (.result command.transactionId .null (.number (.ofNat stream.id.toNat))) s
    | (.error error, s) =>
      replyOnControl command
        (.error command.transactionId createStreamFailed error.message) s

def deleteStream (command : Command) : Action Unit := fun s =>
  match streamIdOf? command.arguments with
  | none => (.ok (), s)
  | some id => (.ok (), (s.deleteNetStream id).2)

/-- Passes any other command to the controller of the app. -/
def callApp (command : Command) : Action Unit := fun s =>
  match s.connection with
  | none =>
    if command.transactionId.isZero then (.ok (), s)
    else replyOnControl command
      (.error command.transactionId Application.CallError.callFailed "Not connected") s
  | some app =>
    match s.invoke app.controller controlMessageStreamId command with
    | (none, s) => (.ok (), s)
    | (some reply, s) => replyOnControl command reply s

/-- Carries out a command on message stream 0. -/
def connectionCommand (command : Command) : Action Unit :=
  match command.name with
  | "connect" => connect command
  | "createStream" => createStream command
  | "deleteStream" => deleteStream command
  | "close" => Transition.update close
  | _ => callApp command

end RtmpEndpoint.Session
