/-!
# Read sizes

How many bytes are asked of the socket at once. Until the handshake is complete the size is fixed;
then it follows the chunk size of the peer.
-/

namespace RtmpEndpoint.Flow

structure ReadSize where
  handshake : Nat
  chunk : Nat
  isHandshakeComplete : Bool := false
  deriving DecidableEq, Repr

namespace ReadSize

/-- No read asks for more. -/
def max : Nat := 1048576

/-- The largest message header of a chunk. -/
def chunkOverhead : Nat := 11

/-- Room for four chunks with their headers. -/
def next (r : ReadSize) : Nat :=
  if r.isHandshakeComplete then min (4 * (r.chunk + chunkOverhead)) max else r.handshake

def completeHandshake (r : ReadSize) : ReadSize := { r with isHandshakeComplete := true }
def setChunk (r : ReadSize) (size : Nat) : ReadSize := { r with chunk := size }

end ReadSize

end RtmpEndpoint.Flow
