import RtmpEndpoint.Application.Controller

/-!
# Accepting every publisher and player

The controller of the server. It starts every publish and play that is asked for and relays media
to nobody.
-/

namespace RtmpEndpoint.Server

open Application

def onStatus (code description : String) : Command where
  encoding := .amf0
  name := "onStatus"
  transactionId := .zero
  object := .null
  arguments := [.status "status" code description]

/-- Tells the client that its stream has begun. A command on no NetStream has no stream to begin. -/
def sendStatus (streamId : UInt32) (code description : String) : Procedure Unit := do
  match ← Procedure.netStream? streamId with
  | none => return ()
  | some stream =>
    match ← Procedure.sendControl (.userControl (.streamBegin streamId)) with
    | .error _ => return ()
    | .ok _ =>
      let _ ← Procedure.send stream .zero (.command (onStatus code description))

/-- Commands that are answered without doing anything. -/
def courtesies : List String := ["releaseStream", "FCPublish", "FCUnpublish", "getStreamLength"]

def invoke (streamId : UInt32) (command : Command) : Procedure Outcome := do
  match command.name with
  | "publish" =>
    sendStatus streamId "NetStream.Publish.Start" "Publishing started."
    return .returned none
  | "play" =>
    sendStatus streamId "NetStream.Play.Start" "Playback started."
    return .returned none
  | name =>
    return if courtesies.contains name then .returned none
      else .failed (.unknownProcedure name)

def acceptAll : Controller where
  name := "accept all"
  invoke := invoke

end RtmpEndpoint.Server
