import RtmpEndpoint.Connection.Schedule
import RtmpEndpoint.Server.AcceptAll
import RtmpEndpoint.Server.Listener
import RtmpEndpoint.Server.Options

/-!
# The server

Serves the peer at the other end of standard input and output, as a connection that a listener
outside has accepted.
-/

namespace RtmpEndpoint.Server

def applications (options : Options) : Application.Applications :=
  options.apps.foldl (fun apps app => apps.register app acceptAll) {}

/-- Room for what is written between two reads. -/
def outboxCapacity : Nat := 1 <<< 30

/-- The connection with this number, before anything has been read. -/
def connection (options : Options) (id : Nat) (nonce : Nonce) : Connection :=
  Connection.accept
    { connectionId := id, config := options.config, applications := applications options }
    nonce outboxCapacity

/-- Serves until the connection is finished. -/
def serve (input output : IO.FS.Stream) (c : Connection) :
    IO (Option (Except ConnectionError Unit)) := do
  let mut s := Schedule.settle { connection := c }
  repeat
    let (bytes, next) := s.takeWritten
    s := next
    output.write (ByteArray.mk bytes.toArray)
    output.flush
    if s.connection.isFinished then break
    let received ← input.read (USize.ofNat (max s.connection.requested 1))
    s := (if received.isEmpty then s.endInput else s.arrive received.toList).settle
  return s.connection.result?

end RtmpEndpoint.Server

open RtmpEndpoint RtmpEndpoint.Server in
def main (words : List String) : IO UInt32 := do
  let mut environment : List (String × String) := []
  for name in OptionName.all do
    if let some value ← IO.getEnv name.environmentName then
      environment := (name.environmentName, value) :: environment
  match Options.parse words (environment.lookup ·) with
  | .error .helpRequested =>
    IO.println OptionError.helpRequested.message
    return 0
  | .error error =>
    IO.eprintln error.message
    return 2
  | .ok options =>
    let seed ← IO.rand 1 (1 <<< 62)
    let input ← IO.getStdin
    let output ← IO.getStdout
    match ← serve input output (connection options 0 (.ofSeed (UInt64.ofNat seed))) with
    | some (.error error) =>
      IO.eprintln error.message
      return 1
    | _ => return 0
