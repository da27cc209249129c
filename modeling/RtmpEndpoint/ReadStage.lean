/-!
# Read stages

What a connection expects next from its peer: one of the two handshake packets, or a part of a
chunk.
-/

namespace RtmpEndpoint

inductive ReadStage where
  | handshakeC0C1
  | handshakeC2
  | firstByteBasicHeader
  | chunkMessageHeader
  | extendedTimestamp
  | completeMessage
  deriving DecidableEq, Repr

namespace ReadStage

def name : ReadStage → String
  | handshakeC0C1 => "HandshakeC0C1"
  | handshakeC2 => "HandshakeC2"
  | firstByteBasicHeader => "FirstByteBasicHeader"
  | chunkMessageHeader => "ChunkMessageHeader"
  | extendedTimestamp => "ExtendedTimestamp"
  | completeMessage => "CompleteMessage"

def isHandshake : ReadStage → Bool
  | handshakeC0C1 | handshakeC2 => true
  | _ => false

/-- How many stages can follow without a byte being consumed. A basic header takes a byte. -/
def rank : ReadStage → Nat
  | chunkMessageHeader => 2
  | completeMessage => 1
  | _ => 0

end ReadStage

end RtmpEndpoint
