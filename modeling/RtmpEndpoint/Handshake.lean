import RtmpEndpoint.Bytes

/-!
# Handshake

The serving side of the plain handshake. The client opens with C0 and C1, gets S0, S1 and S2, and
answers with C2. C1, C2, S1 and S2 carry an epoch, a zero and a nonce. Each side sends the nonce of
the other one back.
-/

namespace RtmpEndpoint

/-- Bytes that the peer has to send back. -/
structure Nonce where
  bytes : Bytes
  length_bytes : bytes.length = 1528
  deriving DecidableEq

namespace Nonce

/-- The next state of a linear congruential generator. -/
def advance (state : UInt64) : UInt64 := state * 6364136223846793005 + 1442695040888963407

/-- High bytes of the next `count` states, after those already `drawn` (last one first). -/
def draw : Nat → UInt64 → (drawn : Bytes) → Bytes
  | 0, _, drawn => drawn.reverse
  | count + 1, state, drawn => draw count (advance state) ((state >>> 56).toUInt8 :: drawn)

theorem length_draw (count : Nat) (state : UInt64) (drawn : Bytes) :
    (draw count state drawn).length = count + drawn.length := by
  induction count generalizing state drawn with
  | zero => simp [draw]
  | succ count ih => simp only [draw, ih, List.length_cons]; omega

def ofSeed (seed : UInt64) : Nonce where
  bytes := draw 1528 (advance seed) []
  length_bytes := by simp [length_draw]

end Nonce

namespace Handshake

def version : UInt8 := 3
def maxVersion : UInt8 := 31

/-- Bytes of C1, C2, S1 and S2. -/
def packetSize : Nat := 1536
/-- Bytes of C0 and C1 together. -/
def c0c1Size : Nat := 1537

/-- The epoch of S1. -/
def epoch : UInt32 := 0

inductive Stage where
  | waitingForC0C1
  | waitingForC2
  | complete
  deriving DecidableEq, Repr

/-- The two writes that answer C0 and C1. -/
structure Reply where
  s0s1 : Bytes
  s2 : Bytes
  deriving DecidableEq

inductive Error where
  | unsupportedVersion (version : UInt8)
  | nonZeroedTimeInC1
  | incorrectPeerTime (expected received : UInt32)
  | incorrectRandomData
  | alreadyCompleted
  deriving DecidableEq, Repr

def Error.message : Error → String
  | unsupportedVersion version =>
    "Peer requested RTMP version " ++ toString version.toNat
      ++ ", only versions 3 through 31 are accepted"
  | nonZeroedTimeInC1 => "C1's second time field was expected to be zero"
  | incorrectPeerTime expected received =>
    "C2 echoed epoch " ++ toString received.toNat ++ " but S1 carried "
      ++ toString expected.toNat
  | incorrectRandomData => "C2 did not echo the random bytes sent in S1"
  | alreadyCompleted =>
    "Handshake bytes were processed after the handshake had already completed"

end Handshake

structure Handshake where
  stage : Handshake.Stage := .waitingForC0C1
  nonce : Nonce
  deriving DecidableEq

namespace Handshake

def isComplete (h : Handshake) : Bool := h.stage == .complete

def reply (nonce : Nonce) (peerEpoch peerNonce : Bytes) : Reply where
  s0s1 := version :: (Bytes.ofUInt32 epoch ++ Bytes.ofUInt32 0 ++ nonce.bytes)
  s2 := peerEpoch ++ Bytes.ofUInt32 0 ++ peerNonce

/-- Judges C0 and C1 once all of both is there. -/
def receiveC0C1 (h : Handshake) (input : Bytes) : Except Error (Option (Reply × Handshake)) :=
  if h.isComplete then .error .alreadyCompleted
  else match input.split? c0c1Size with
    | none => .ok none
    | some (packet, _) =>
      let requested := packet.headD 0
      let c1 := packet.drop 1
      if requested < version ∨ maxVersion < requested then .error (.unsupportedVersion requested)
      else if (c1.drop 4).take 4 ≠ Bytes.ofUInt32 0 then .error .nonZeroedTimeInC1
      else .ok (some (reply h.nonce (c1.take 4) (c1.drop 8), { h with stage := .waitingForC2 }))

/-- Judges C2 once all of it is there. Its second time field may hold anything. -/
def receiveC2 (h : Handshake) (input : Bytes) : Except Error (Option Handshake) :=
  if h.isComplete then .error .alreadyCompleted
  else match input.split? packetSize with
    | none => .ok none
    | some (packet, _) =>
      let echoed := UInt32.ofNat (Bytes.toNat (packet.take 4))
      if echoed ≠ epoch then .error (.incorrectPeerTime epoch echoed)
      else if packet.drop 8 ≠ h.nonce.bytes then .error .incorrectRandomData
      else .ok (some { h with stage := .complete })

theorem length_of_receiveC0C1 {h : Handshake} {input : Bytes} {answer : Reply × Handshake}
    (hr : h.receiveC0C1 input = .ok (some answer)) : c0c1Size ≤ input.length := by
  unfold receiveC0C1 at hr
  split at hr
  · simp at hr
  · split at hr
    · simp at hr
    · next hs =>
      have := Bytes.length_of_split? hs
      omega

theorem length_of_receiveC2 {h next : Handshake} {input : Bytes}
    (hr : h.receiveC2 input = .ok (some next)) : packetSize ≤ input.length := by
  unfold receiveC2 at hr
  split at hr
  · simp at hr
  · split at hr
    · simp at hr
    · next hs =>
      have := Bytes.length_of_split? hs
      omega

end Handshake

end RtmpEndpoint
