import RtmpEndpoint.Application.Procedure

/-!
# Controllers

The application behind an app name. A controller gets the commands that the session does not
handle itself and the media and data messages of NetStreams. The outcome of a command decides the
reply.
-/

namespace RtmpEndpoint.Application

/-- Why a procedure failed. -/
inductive CallError where
  | unknownProcedure (name : String)
  | failed (code description : String)
  deriving DecidableEq, Repr

namespace CallError

/-- The status code of a call that failed for no reason of the application. -/
def callFailed : String := "NetConnection.Call.Failed"

def code : CallError → String
  | unknownProcedure _ => callFailed
  | failed code _ => code

def message : CallError → String
  | unknownProcedure name => "No procedure named '" ++ name ++ "'"
  | failed code description => code ++ ": " ++ description

end CallError

inductive Outcome where
  /-- Nothing is replied as null. -/
  | returned (value : Option Amf0.Value)
  | failed (error : CallError)
  /-- The procedure broke off. -/
  | crashed
  deriving Repr

namespace Outcome

/-- What the caller is told about a command that came to this end. -/
def result (outcome : Outcome) (command : Command) : Except CallError Amf0.Value :=
  match outcome with
  | returned value => .ok (value.getD .null)
  | failed error => .error error
  | crashed => .error (.failed CallError.callFailed ("Procedure '" ++ command.name ++ "' failed"))

/-- The reply to a command, in its encoding. A caller that gave transaction id zero wants none. -/
def reply? (outcome : Outcome) (command : Command) : Option Command :=
  if command.transactionId.isZero then none
  else
    let reply := match outcome.result command with
      | .ok value => Command.result command.transactionId .null value
      | .error error => Command.error command.transactionId error.code error.message
    some { reply with encoding := command.encoding }

end Outcome

structure Controller where
  name : String
  /-- Carries out a command that came on a message stream. -/
  invoke : (streamId : UInt32) → Command → Procedure Outcome
  /-- Takes notice of a message that is no command. -/
  onStreamMessage : (streamId : UInt32) → Inbound → Procedure Unit := fun _ _ => .done ()

/-- Something a session called into the application for. -/
inductive Call where
  | invoked (controller : String) (streamId : UInt32) (command : Command)
  | notified (controller : String) (streamId : UInt32) (message : Inbound)
  /-- A handler that the application registered. -/
  | handled (handler : String) (message : Inbound)
  deriving Repr

/-- Controllers by app name, the one registered last first. -/
structure Applications where
  entries : List (String × Controller) := []

namespace Applications

/-- Slashes at the end of an app name do not count. -/
def normalize (app : String) : String :=
  String.ofList (app.toList.reverse.dropWhile (· = '/')).reverse

/-- Replaces a controller with the same app name. -/
def register (apps : Applications) (app : String) (controller : Controller) : Applications :=
  ⟨(normalize app, controller) :: apps.entries⟩

def get? (apps : Applications) (app : String) : Option Controller :=
  (apps.entries.find? (·.1 == normalize app)).map (·.2)

end Applications

end RtmpEndpoint.Application
