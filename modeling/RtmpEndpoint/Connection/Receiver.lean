import RtmpEndpoint.Connection.Link

/-!
# The receiver

Turns the bytes of a peer into messages: the handshake first, chunks from then on. A step takes one
part of the input off the buffer or finds that some of it is missing. Bytes of chunks are counted
once all that came with them is taken; those of the handshake are not counted.
-/

namespace RtmpEndpoint

/-- Leaving the handshake forgets its nonce. -/
inductive Phase where
  | handshaking (handshake : Handshake)
  | chunking

structure Receiver where
  phase : Phase
  stage : ReadStage := .handshakeC0C1
  /-- What has come in and no step has taken. -/
  buffer : Buffer := .empty
  link : Link

namespace Receiver

abbrev Action (α : Type) := Transition Receiver ConnectionError α

/-- Queues the answer to C0 and C1. -/
def sendReply (reply : Handshake.Reply) : Session.Action Unit := do
  Session.onQueue (Flow.SendQueue.sendRaw reply.s0s1)
  Session.onQueue (Flow.SendQueue.sendRaw reply.s2)

def takeC0C1 (handshake : Handshake) : Action (Option Nat) := fun r =>
  match handshake.receiveC0C1 r.buffer.bytes with
  | .error error => (.error (.handshake error), r)
  | .ok none => (.ok none, r)
  | .ok (some (reply, handshake)) =>
    let r := { r with phase := .handshaking handshake }
    match Link.onSession (sendReply reply) r.link with
    | (.error error, link) => (.error error, { r with link })
    | (.ok (), link) =>
      (.ok (some 0),
        { r with
          stage := .handshakeC2, buffer := r.buffer.drop Handshake.c0c1Size, link })

def takeC2 (handshake : Handshake) : Action (Option Nat) := fun r =>
  match handshake.receiveC2 r.buffer.bytes with
  | .error error => (.error (.handshake error), r)
  | .ok none => (.ok none, r)
  | .ok (some _) =>
    (.ok (some 0),
      { phase := .chunking
        stage := .firstByteBasicHeader
        buffer := r.buffer.drop Handshake.packetSize
        link := { r.link with readSize := r.link.readSize.completeHandshake } })

/-- A part that cannot be whole is left alone until enough has come in. -/
def takeChunkPart : Action (Option Nat) := fun r =>
  if r.buffer.size < r.link.assembler.needed r.stage then (.ok none, r)
  else
    let (progress, assembler) := r.link.assembler.step r.stage r.buffer.bytes
    let r := { r with link := { r.link with assembler } }
    match progress with
    | .error error => (.error (.framing error), r)
    | .ok .needMoreData => (.ok none, r)
    | .ok (.advanced consumed next) =>
      (.ok (some consumed), { r with stage := next, buffer := r.buffer.drop consumed })
    | .ok (.completed consumed payload) =>
      let r := { r with stage := .firstByteBasicHeader, buffer := r.buffer.drop consumed }
      match Link.receive payload r.link with
      | (.error error, link) => (.error error, { r with link })
      | (.ok (), link) => (.ok (some consumed), { r with link })

/-- Takes the part of the input that the stage names. Answers how many bytes of chunks it took, or
nothing if part of it is missing. -/
def step : Action (Option Nat) := fun r =>
  match r.phase, r.stage with
  | .handshaking handshake, .handshakeC0C1 => takeC0C1 handshake r
  | .handshaking handshake, .handshakeC2 => takeC2 handshake r
  | .handshaking _, _ => (.ok none, r)
  | .chunking, _ => takeChunkPart r

/-- What is left to take after a step is shorter or at a stage of lower rank. -/
theorem step_some {r s : Receiver} {n : Nat} (h : step r = (.ok (some n), s)) :
    Prod.Lex (· < ·) (· < ·) (s.buffer.size, s.stage.rank) (r.buffer.size, r.stage.rank) := by
  unfold step at h
  split at h
  · next hs =>
    simp only [takeC0C1] at h
    split at h
    · simp at h
    · simp at h
    · next hc =>
      have hlen := Handshake.length_of_receiveC0C1 hc
      split at h
      · simp at h
      · simp only [Prod.mk.injEq] at h
        obtain ⟨-, rfl⟩ := h
        refine .left _ _ ?_
        simp only [Buffer.length_bytes, Buffer.size_drop, Handshake.c0c1Size] at *
        omega
  · next hs =>
    simp only [takeC2] at h
    split at h
    · simp at h
    · simp at h
    · next hc =>
      have hlen := Handshake.length_of_receiveC2 hc
      simp only [Prod.mk.injEq] at h
      obtain ⟨-, rfl⟩ := h
      refine .left _ _ ?_
      simp only [Buffer.length_bytes, Buffer.size_drop, Handshake.packetSize] at *
      omega
  · simp at h
  · simp only [takeChunkPart] at h
    split at h
    · simp at h
    split at h
    · simp at h
    · simp at h
    · next consumed next heq =>
      obtain ⟨hle, hlt⟩ := Chunk.Assembler.step_advanced (Prod.ext heq rfl)
      simp only [Prod.mk.injEq] at h
      obtain ⟨-, rfl⟩ := h
      rw [Prod.lex_def]
      simp only [Buffer.length_bytes, Buffer.size_drop] at *
      omega
    · next consumed payload heq =>
      obtain ⟨hle, hs⟩ := Chunk.Assembler.step_completed (Prod.ext heq rfl)
      split at h
      · simp at h
      · simp only [Prod.mk.injEq] at h
        obtain ⟨-, rfl⟩ := h
        rw [Prod.lex_def]
        simp only [Buffer.length_bytes, Buffer.size_drop, hs, ReadStage.rank] at *
        omega

/-- Steps until more data is needed, then counts the bytes of chunks, of which `framed` have been
taken already. -/
def processOnto (framed : Nat) (r : Receiver) : Except ConnectionError Unit × Receiver :=
  match _h : step r with
  | (.error error, r) => (.error error, r)
  | (.ok (some n), s) => processOnto (framed + n) s
  | (.ok none, r) =>
    if framed = 0 then (.ok (), r)
    else match Link.recordReceived framed r.link with
      | (.ok (), link) => (.ok (), { r with link })
      | (.error error, link) => (.error (.session error), { r with link })
termination_by (r.buffer.size, r.stage.rank)
decreasing_by exact step_some _h

/-- Takes what it can of the input. -/
def process (input : Bytes) : Action Unit := fun r =>
  processOnto 0 { r with buffer := r.buffer.push input }

end Receiver

end RtmpEndpoint
