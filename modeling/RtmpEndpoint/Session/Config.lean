/-!
# Configuration

What the operator chooses for every connection.
-/

namespace RtmpEndpoint

structure Config where
  /-- The write chunk size announced once a client connects. -/
  chunkSize : UInt32 := 4096
  /-- The window announced once a client connects. -/
  windowAckSize : UInt32 := 2500000
  /-- The bandwidth, of dynamic limit, announced once a client connects. -/
  peerBandwidth : UInt32 := 2500000
  /-- Reported as `fmsVer` when a client connects. -/
  fmsVersion : String := "FMS/3,0,1,123"
  /-- How much is read at once until the handshake is complete. -/
  handshakeReadSize : Nat := 1536
  /-- How many reads may wait for the receiver. -/
  inboundQueueDepth : Nat := 32
  deriving DecidableEq, Repr

end RtmpEndpoint
