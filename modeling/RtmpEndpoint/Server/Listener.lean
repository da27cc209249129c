/-!
# The listener

Connections are asked for one after the other and numbered as they come. When none can be had the
listener waits before it asks again, and a connection that cannot be prepared is dropped; neither
stops the listener.
-/

namespace RtmpEndpoint.Server

/-- What comes of asking for a connection. -/
inductive Arrival where
  | failed
  | connected
  /-- A connection came and could not be prepared. -/
  | unprepared
  deriving DecidableEq, Repr

/-- What is done with a connection that came. -/
inductive Admission where
  | served (id : Nat)
  | dropped (id : Nat)
  deriving DecidableEq, Repr

structure Listener where
  /-- Milliseconds since the listener was started. -/
  clock : Nat := 0
  nextId : Nat := 0
  deriving DecidableEq, Repr

namespace Listener

/-- Milliseconds between a failure and the next attempt. -/
def retryDelay : Nat := 100

/-- Takes what came of asking once. -/
def advance (l : Listener) : Arrival → Option Admission × Listener
  | .failed => (none, { l with clock := l.clock + retryDelay })
  | .connected => (some (.served l.nextId), { l with nextId := l.nextId + 1 })
  | .unprepared => (some (.dropped l.nextId), { l with nextId := l.nextId + 1 })

/-- What becomes of the connections that come. -/
def admissions (l : Listener) : List Arrival → List Admission
  | [] => []
  | arrival :: arrivals =>
    let (admission, l) := l.advance arrival
    admission.toList ++ admissions l arrivals

/-- When a connection is asked for. The last time nothing comes of it. -/
def times (l : Listener) : List Arrival → List Nat
  | [] => [l.clock]
  | arrival :: arrivals => l.clock :: times (l.advance arrival).2 arrivals

end Listener

end RtmpEndpoint.Server
