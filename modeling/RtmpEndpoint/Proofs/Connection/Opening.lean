import RtmpEndpoint.Proofs.Chunk.Taking
import RtmpEndpoint.Proofs.Connection.Cutting

/-!
# The opening of a connection

What the handshake asks of a stream stands at fixed places of it: C0 and C1 are the bytes up to
1537, C2 is the bytes up to 3073, and chunks begin there. What a receiver does is said here by those
places alone, however the stream is cut into pieces.
-/

namespace RtmpEndpoint

theorem Bytes.toNat_eq_zero_iff {bytes : Bytes} :
    bytes.toNat = 0 ↔ bytes = List.replicate bytes.length 0 := by
  induction bytes with
  | nil => simp
  | cons b rest ih =>
    have hb : b.toNat = 0 ↔ b = 0 := by rw [← UInt8.toNat_inj, UInt8.toNat_zero]
    rw [Bytes.toNat_cons, Nat.add_eq_zero_iff, Nat.shiftLeft_eq_zero_iff, ih, hb, List.length_cons,
      List.replicate_succ, List.cons.injEq]

/-! ## Places in the stream -/

namespace Handshake

/-- C0 names a version that is served, and the second time field of C1 is zero. -/
def Opens (stream : Bytes) : Prop :=
  (3 ≤ stream.headD 0 ∧ stream.headD 0 ≤ 31) ∧ stream.extract 5 9 = [0, 0, 0, 0]

/-- What is wrong with C0 and C1 that do not open a connection. -/
def openingError (stream : Bytes) : Error :=
  if 3 ≤ stream.headD 0 ∧ stream.headD 0 ≤ 31 then .nonZeroedTimeInC1
  else .unsupportedVersion (stream.headD 0)

/-- The writes that answer C0 and C1: S0 and S1, then S2. -/
def answers (nonce : Nonce) (stream : Bytes) : List Flow.QueuedChunk :=
  [⟨[3] ++ List.replicate 8 0 ++ nonce.bytes, none⟩,
    ⟨stream.extract 1 5 ++ List.replicate 4 0 ++ stream.extract 9 1537, none⟩]

/-- C2 has the epoch and the nonce of S1. The bytes between them may be any. -/
def Echoes (nonce : Nonce) (stream : Bytes) : Prop :=
  stream.extract 1537 1541 = [0, 0, 0, 0] ∧ stream.extract 1545 3073 = nonce.bytes

/-- What is wrong with a C2 that does not echo S1. -/
def echoError (stream : Bytes) : Error :=
  if stream.extract 1537 1541 = [0, 0, 0, 0] then .incorrectRandomData
  else .incorrectPeerTime 0 (UInt32.ofNat (Bytes.toNat (stream.extract 1537 1541)))

/-- The same of C2 on its own. -/
def IsEcho (nonce : Nonce) (packet : Bytes) : Prop :=
  packet.extract 0 4 = [0, 0, 0, 0] ∧ packet.extract 8 1536 = nonce.bytes

def packetError (packet : Bytes) : Error :=
  if packet.extract 0 4 = [0, 0, 0, 0] then .incorrectRandomData
  else .incorrectPeerTime 0 (UInt32.ofNat (Bytes.toNat (packet.extract 0 4)))

instance (stream : Bytes) : Decidable (Opens stream) := inferInstanceAs (Decidable (_ ∧ _))

instance (nonce : Nonce) (stream : Bytes) : Decidable (Echoes nonce stream) :=
  inferInstanceAs (Decidable (_ ∧ _))

instance (nonce : Nonce) (packet : Bytes) : Decidable (IsEcho nonce packet) :=
  inferInstanceAs (Decidable (_ ∧ _))

variable {h : Handshake} {stream : Bytes}

theorem refused_version_iff (v : UInt8) :
    (v < version ∨ maxVersion < v) ↔ ¬ (3 ≤ v ∧ v ≤ 31) := by
  rw [Decidable.not_and_iff_not_or_not, UInt8.not_le, UInt8.not_le]
  exact Iff.rfl

theorem receiveC0C1_eq (hstage : h.stage ≠ .complete) (stream : Bytes) :
    h.receiveC0C1 stream =
      if stream.length < 1537 then .ok none
      else if Opens stream then
        .ok (some (reply h.nonce (stream.extract 1 5) (stream.extract 9 1537),
          { h with stage := .waitingForC2 }))
      else .error (openingError stream) := by
  have hcomplete : h.isComplete = false := by simpa [isComplete] using hstage
  rw [receiveC0C1, if_neg (by simp [hcomplete]), c0c1Size]
  by_cases hlen : stream.length < 1537
  · rw [if_pos hlen, Bytes.split?_eq_none_iff.mpr hlen]
  · have hversion : (stream.take 1537).headD 0 = stream.headD 0 := by cases stream <;> rfl
    have hepoch : ((stream.take 1537).drop 1).take 4 = stream.extract 1 5 := by
      simp [List.drop_take, List.take_take]
    have htime : (((stream.take 1537).drop 1).drop 4).take 4 = stream.extract 5 9 := by
      simp [List.drop_take, List.take_take]
    have hnonce : ((stream.take 1537).drop 1).drop 8 = stream.extract 9 1537 := by
      simp [List.drop_take]
    have hzero : Bytes.ofUInt32 0 = [0, 0, 0, 0] := rfl
    rw [if_neg hlen, Bytes.split?_of_le (Nat.le_of_not_lt hlen)]
    simp only [hversion, hepoch, htime, hnonce, hzero, refused_version_iff, Opens, openingError]
    by_cases hv : 3 ≤ stream.headD 0 ∧ stream.headD 0 ≤ 31
    · by_cases ht : stream.extract 5 9 = [0, 0, 0, 0]
      · simp only [hv, ht, and_self, not_true_eq_false, ne_eq, if_true, if_false]
      · simp only [hv, ht, and_false, not_false_eq_true, not_true_eq_false, ne_eq, and_self,
          if_true, if_false]
    · simp only [hv, false_and, not_false_eq_true, if_true, if_false]

theorem eq_zeros_iff {bytes : Bytes} (h : bytes.length = 4) :
    UInt32.ofNat (Bytes.toNat bytes) = 0 ↔ bytes = [0, 0, 0, 0] := by
  have hlt := Bytes.toNat_lt bytes
  rw [h] at hlt
  have hword : (UInt32.ofNat (Bytes.toNat bytes)).toNat = Bytes.toNat bytes :=
    UInt32.toNat_ofNat_of_lt' hlt
  rw [← UInt32.toNat_inj, hword, UInt32.toNat_zero, Bytes.toNat_eq_zero_iff, h]
  rfl

theorem receiveC2_packet (hstage : h.stage ≠ .complete) (packet : Bytes) :
    h.receiveC2 packet =
      if packet.length < 1536 then .ok none
      else if IsEcho h.nonce packet then .ok (some { h with stage := .complete })
      else .error (packetError packet) := by
  have hcomplete : h.isComplete = false := by simpa [isComplete] using hstage
  rw [receiveC2, if_neg (by simp [hcomplete]), packetSize]
  by_cases hlen : packet.length < 1536
  · rw [if_pos hlen, Bytes.split?_eq_none_iff.mpr hlen]
  · have hepoch : (packet.take 1536).take 4 = packet.extract 0 4 := by
      simp [List.take_take]
    have hnonce : (packet.take 1536).drop 8 = packet.extract 8 1536 := by
      simp [List.drop_take]
    have hfour : (packet.extract 0 4).length = 4 := by
      simp only [List.extract, List.length_take, List.length_drop]
      omega
    rw [if_neg hlen, Bytes.split?_of_le (Nat.le_of_not_lt hlen)]
    simp only [hepoch, hnonce, epoch, ne_eq, eq_zeros_iff hfour, IsEcho, packetError]
    by_cases ht : packet.extract 0 4 = [0, 0, 0, 0]
    · simp only [ht, true_and, not_true_eq_false, if_true, if_false]
      by_cases hn : packet.extract 8 1536 = h.nonce.bytes
      · simp only [hn, not_true_eq_false, if_true, if_false]
      · simp only [hn, not_false_eq_true, if_true, if_false]
    · simp only [ht, false_and, not_false_eq_true, if_true, if_false]

theorem receiveC2_eq (hstage : h.stage ≠ .complete) (stream : Bytes) :
    h.receiveC2 (stream.drop 1537) =
      if stream.length < 3073 then .ok none
      else if Echoes h.nonce stream then .ok (some { h with stage := .complete })
      else .error (echoError stream) := by
  have hepoch : (stream.drop 1537).extract 0 4 = stream.extract 1537 1541 := by simp
  have hnonce : (stream.drop 1537).extract 8 1536 = stream.extract 1545 3073 := by simp
  have hlen : (stream.drop 1537).length < 1536 ↔ stream.length < 3073 := by
    rw [List.length_drop]
    omega
  have hecho : IsEcho h.nonce (stream.drop 1537) ↔ Echoes h.nonce stream := by
    rw [IsEcho, Echoes, hepoch, hnonce]
  have herror : packetError (stream.drop 1537) = echoError stream := by
    rw [packetError, echoError, hepoch]
  simp only [receiveC2_packet hstage, hlen, hecho, herror]

end Handshake

/-! ## A packet that comes in pieces -/

namespace Receiver

open RtmpEndpoint.Flow (ReadSize)
open Handshake (Opens Echoes openingError echoError answers)

variable {r s t : Receiver} {β : Type} {packet : Bytes → Except Handshake.Error (Option β)}
  {size : Nat} {after : β → Receiver}

/-- The receiver is at a packet of the handshake: it waits while the packet is not whole, stops if
the packet is wrong, and otherwise goes on behind it. -/
structure AtPacket (packet : Bytes → Except Handshake.Error (Option β)) (size : Nat)
    (after : β → Receiver) (r : Receiver) : Prop where
  front : ∀ bytes more, packet bytes = .ok none ∨ packet bytes = packet (bytes ++ more)
  whole : ∀ bytes judged, packet bytes = .ok (some judged) → size ≤ bytes.length
  waits : ∀ buffer : Buffer, packet buffer.bytes = .ok none →
    step { r with buffer } = (.ok none, { r with buffer })
  stops : ∀ (buffer : Buffer) error, packet buffer.bytes = .error error →
    step { r with buffer } = (.error (.handshake error), { r with buffer })
  goesOn : ∀ (buffer : Buffer) judged, packet buffer.bytes = .ok (some judged) →
    step { r with buffer } = (.ok (some 0), { after judged with buffer := buffer.drop size })

/-- A buffer without its front is an empty one that the rest has come in to. -/
theorem drop_eq_push (buffer : Buffer) (count : Nat) :
    buffer.drop count = Buffer.empty.push (buffer.bytes.drop count) := by
  simp only [Buffer.drop, Buffer.push, Buffer.empty, Buffer.mk.injEq, true_and]
  rw [List.length_drop, Buffer.length_bytes, Nat.add_zero]

theorem processAll_cons_error {input : Bytes} {error : ConnectionError}
    (h : step (r.push input) = (.error error, s)) (inputs : List Bytes) :
    processAll (input :: inputs) r = (.error error, s) :=
  Transition.bind_error (processOnto_error 0 h)

theorem processAll_cons_none {input : Bytes} (h : step (r.push input) = (.ok none, s))
    (inputs : List Bytes) : processAll (input :: inputs) r = processAll inputs s :=
  Transition.bind_ok (processOnto_none h)

/-- Bytes behind a packet are as good as bytes that come after it. -/
theorem processAll_cons_some {input rest : Bytes}
    (h : step (r.push input) = (.ok (some 0), s.push rest)) (inputs : List Bytes) :
    processAll (input :: inputs) r = processAll (rest :: inputs) s := by
  have hprocess : process input r = process rest s := processOnto_some 0 h
  rw [processAll, processAll, Transition.bind_apply, Transition.bind_apply, hprocess]

/-- What comes of the pieces of a stream at a packet: too few bytes are waited on, a wrong packet
ends the connection, and behind a right one the rest of the stream is taken. -/
theorem AtPacket.processAll_eq (h : AtPacket packet size after r) (inputs : List Bytes)
    (buffer : Buffer) (hwait : packet buffer.bytes = .ok none) :
    match packet (buffer.bytes ++ inputs.flatten) with
    | .ok none => ∃ left, processAll inputs { r with buffer } = (.ok (), { r with buffer := left })
    | .error error => ∃ left, processAll inputs { r with buffer }
        = (.error (.handshake error), { r with buffer := left })
    | .ok (some judged) => ∃ rest,
        rest.flatten = (buffer.bytes ++ inputs.flatten).drop size ∧
          processAll inputs { r with buffer }
            = processAll rest { after judged with buffer := .empty } := by
  -- The buffer holds what has come in of the packet, and what is judged of it is final.
  induction inputs generalizing buffer with
  | nil =>
    rw [List.flatten_nil, List.append_nil, hwait]
    exact ⟨buffer, rfl⟩
  | cons input inputs ih =>
    have hfront := h.front (buffer.push input).bytes inputs.flatten
    rw [List.flatten_cons, ← List.append_assoc, ← Buffer.bytes_push]
    cases hc : packet (buffer.push input).bytes with
    | error error =>
      rw [hc] at hfront
      rw [← hfront.resolve_left (by simp)]
      have hstep := h.stops (buffer.push input) error hc
      exact ⟨buffer.push input, processAll_cons_error (r := { r with buffer }) hstep inputs⟩
    | ok judged =>
      cases judged with
      | none =>
        have hstep := h.waits (buffer.push input) hc
        rw [processAll_cons_none (r := { r with buffer }) hstep inputs]
        exact ih (buffer.push input) hc
      | some judged =>
        rw [hc] at hfront
        rw [← hfront.resolve_left (by simp)]
        have hstep := h.goesOn (buffer.push input) judged hc
        rw [drop_eq_push] at hstep
        refine ⟨(buffer.push input).bytes.drop size :: inputs, ?_, ?_⟩
        · rw [List.flatten_cons, List.drop_append_of_le_length (h.whole _ judged hc)]
        · exact processAll_cons_some (r := { r with buffer })
            (s := { after judged with buffer := .empty }) hstep inputs

/-! ## The two packets -/

variable {nonce : Nonce} {session : Session} {readSize : ReadSize}

/-- The session with these writes behind everything else. -/
def sending (chunks : List Flow.QueuedChunk) (session : Session) : Session :=
  { session with queue := { session.queue with chunks := session.queue.chunks ++ chunks } }

/-- The receiver that has sent these writes and waits for C2. -/
def awaitingC2 (nonce : Nonce) (session : Session) (readSize : ReadSize)
    (chunks : List Flow.QueuedChunk) : Receiver where
  phase := .handshaking { nonce, stage := .waitingForC2 }
  stage := .handshakeC2
  link := { readSize, session := sending chunks session }

/-- The receiver that has taken C2. Nothing has come in to its assembler. -/
def opened (session : Session) (readSize : ReadSize) (chunks : List Flow.QueuedChunk) :
    Receiver where
  phase := .chunking
  stage := .firstByteBasicHeader
  link := { readSize := readSize.completeHandshake, session := sending chunks session }

theorem sendReply_of_isOpen (hopen : session.queue.isOpen = true) (reply : Handshake.Reply) :
    sendReply reply session
      = (.ok (), sending [⟨reply.s0s1, none⟩, ⟨reply.s2, none⟩] session) := by
  simp only [sendReply, Transition.bind_apply, Session.onQueue, Transition.focus,
    Flow.SendQueue.sendRaw, hopen, if_true, sending, List.append_assoc, List.singleton_append]

theorem atPacket_fresh (hopen : session.queue.isOpen = true) :
    AtPacket (Handshake.receiveC0C1 { nonce }) 1537
      (fun judged => { awaitingC2 nonce session readSize
        [⟨judged.1.s0s1, none⟩, ⟨judged.1.s2, none⟩] with phase := .handshaking judged.2 })
      (fresh nonce { readSize, session }) where
  front := Handshake.receiveC0C1_front _
  whole bytes judged h := Handshake.length_of_receiveC0C1 h
  waits buffer h := by simp only [step, fresh, takeC0C1, h]
  stops buffer error h := by simp only [step, fresh, takeC0C1, h]
  goesOn buffer judged h := by
    simp only [step, fresh, takeC0C1, h, Link.onSession, Transition.focus,
      sendReply_of_isOpen hopen]
    rfl

theorem atPacket_awaitingC2 (chunks : List Flow.QueuedChunk) :
    AtPacket (Handshake.receiveC2 { nonce, stage := .waitingForC2 }) 1536
      (fun _ => opened session readSize chunks) (awaitingC2 nonce session readSize chunks) where
  front := Handshake.receiveC2_front _
  whole bytes judged h := Handshake.length_of_receiveC2 h
  waits buffer h := by simp only [step, awaitingC2, takeC2, h]
  stops buffer error h := by simp only [step, awaitingC2, takeC2, h]
  goesOn buffer judged h := by
    simp only [step, awaitingC2, takeC2, h]
    rfl

/-! ## The stream -/

/-- While C0 and C1 are not whole, and if they are wrong, nothing is sent. -/
theorem processAll_fresh (nonce : Nonce) (readSize : ReadSize)
    (hopen : session.queue.isOpen = true) (inputs : List Bytes) :
    if inputs.flatten.length < 1537 then
      ∃ left, processAll inputs (fresh nonce { readSize, session })
        = (.ok (), { fresh nonce { readSize, session } with buffer := left })
    else if Opens inputs.flatten then
      ∃ rest, rest.flatten = inputs.flatten.drop 1537 ∧
        processAll inputs (fresh nonce { readSize, session })
          = processAll rest (awaitingC2 nonce session readSize (answers nonce inputs.flatten))
    else
      ∃ left, processAll inputs (fresh nonce { readSize, session })
        = (.error (.handshake (openingError inputs.flatten)),
          { fresh nonce { readSize, session } with buffer := left }) := by
  have hat : AtPacket _ _ _ (fresh nonce { readSize, session }) := atPacket_fresh hopen
  have hpacket := hat.processAll_eq inputs .empty rfl
  have hempty : Buffer.empty.bytes ++ inputs.flatten = inputs.flatten := rfl
  rw [hempty, Handshake.receiveC0C1_eq (by simp)] at hpacket
  by_cases hlen : inputs.flatten.length < 1537
  · rw [if_pos hlen] at hpacket ⊢
    exact hpacket
  by_cases hopens : Opens inputs.flatten
  · rw [if_neg hlen, if_pos hopens] at hpacket ⊢
    exact hpacket
  · rw [if_neg hlen, if_neg hopens] at hpacket ⊢
    exact hpacket

/-- While C2 is not whole, and if it is wrong, nothing more is sent. -/
theorem processAll_awaitingC2 (nonce : Nonce) (session : Session) (readSize : ReadSize)
    (chunks : List Flow.QueuedChunk) {stream : Bytes} {inputs : List Bytes}
    (hrest : inputs.flatten = stream.drop 1537) :
    if stream.length < 3073 then
      ∃ left, processAll inputs (awaitingC2 nonce session readSize chunks)
        = (.ok (), { awaitingC2 nonce session readSize chunks with buffer := left })
    else if Echoes nonce stream then
      ∃ rest, rest.flatten = stream.drop 3073 ∧
        processAll inputs (awaitingC2 nonce session readSize chunks)
          = processAll rest (opened session readSize chunks)
    else
      ∃ left, processAll inputs (awaitingC2 nonce session readSize chunks)
        = (.error (.handshake (echoError stream)),
          { awaitingC2 nonce session readSize chunks with buffer := left }) := by
  have hat : AtPacket _ _ _ (awaitingC2 nonce session readSize chunks) :=
    atPacket_awaitingC2 chunks
  have hpacket := hat.processAll_eq inputs .empty rfl
  have hempty : Buffer.empty.bytes ++ inputs.flatten = stream.drop 1537 := hrest
  rw [hempty, Handshake.receiveC2_eq (by simp), List.drop_drop] at hpacket
  by_cases hlen : stream.length < 3073
  · rw [if_pos hlen] at hpacket ⊢
    exact hpacket
  by_cases hechoes : Echoes nonce stream
  · rw [if_neg hlen, if_pos hechoes] at hpacket ⊢
    exact hpacket
  · rw [if_neg hlen, if_neg hechoes] at hpacket ⊢
    exact hpacket

/-! ## Phases and stages -/

/-- The states that a receiver can come to: more comes in, it takes a step, or it counts what it has
taken. -/
inductive Reaches (r : Receiver) : Receiver → Prop where
  | refl : Reaches r r
  | push {s : Receiver} (h : Reaches r s) (input : Bytes) : Reaches r (s.push input)
  | step {s : Receiver} (h : Reaches r s) : Reaches r (step s).2
  | counted {s : Receiver} (h : Reaches r s) (bytes : Nat) :
      Reaches r { s with link := (Link.recordReceived bytes s.link).2 }

theorem Reaches.of_step {result : Except ConnectionError (Option Nat)} (h : Reaches r s)
    (hs : Receiver.step s = (result, t)) : Reaches r t := by
  have hnext := h.step
  rw [hs] at hnext
  exact hnext

theorem Reaches.of_count {result : Except SessionError Unit} {link : Link} (h : Reaches r s)
    {bytes : Nat} (hs : Link.recordReceived bytes s.link = (result, link)) :
    Reaches r { s with link } := by
  have hnext := h.counted bytes
  rw [hs] at hnext
  exact hnext

theorem reaches_processOnto (framed : Nat) (h : Reaches r s) :
    Reaches r (processOnto framed s).2 := by
  fun_induction processOnto framed s with
  | case1 framed s error t hs => exact h.of_step hs
  | case2 framed s n t hs ih => exact ih (h.of_step hs)
  | case3 s t hs => exact h.of_step hs
  | case4 framed s t hs hframed link hcount => exact (h.of_step hs).of_count hcount
  | case5 framed s t hs hframed error link hcount => exact (h.of_step hs).of_count hcount

theorem reaches_processAll (inputs : List Bytes) (h : Reaches r s) :
    Reaches r (processAll inputs s).2 := by
  induction inputs generalizing s with
  | nil => exact h
  | cons input inputs ih =>
    have hprocess : Reaches r (process input s).2 := reaches_processOnto 0 (h.push input)
    rw [processAll, Transition.bind_apply]
    cases hp : process input s with
    | mk result t =>
      rw [hp] at hprocess
      cases result with
      | error error => exact hprocess
      | ok => exact ih hprocess

/-- The stages of the handshake are those of the phase of the handshake. -/
inductive Fits : Phase → ReadStage → Prop where
  | c0c1 (handshake : Handshake) : Fits (.handshaking handshake) .handshakeC0C1
  | c2 (handshake : Handshake) : Fits (.handshaking handshake) .handshakeC2
  | chunk {stage : ReadStage} (h : stage.isHandshake = false) : Fits .chunking stage

theorem isHandshake_of_takes {a b : Chunk.Assembler} {stage next : ReadStage} {taken : Bytes}
    {completes : Option Payload} (h : a.Takes stage taken next completes b) :
    next.isHandshake = false := by
  cases h with
  | basicHeader =>
    unfold Chunk.Assembler.stageAfterBasicHeader Chunk.Assembler.afterTimestamp
    split
    · split <;> rfl
    · rfl
  | fields =>
    unfold Chunk.stageAfterFields
    split <;> rfl
  | extension | part | last => rfl

theorem phase_afterPart (r : Receiver)
    (result : Except Chunk.AssembleError Chunk.Progress × Chunk.Assembler) :
    (afterPart r result).2.phase = r.phase := by
  unfold afterPart
  split
  · rfl
  · rfl
  · rfl
  · split <;> rfl

theorem isHandshake_afterPart (hs : r.stage.isHandshake = false) :
    (afterPart r (r.link.assembler.step r.stage r.buffer.bytes)).2.stage.isHandshake = false := by
  cases hp : r.link.assembler.step r.stage r.buffer.bytes with
  | mk progress assembler =>
    unfold afterPart
    split
    · exact hs
    · exact hs
    · next consumed next heq =>
      cases heq
      obtain ⟨_, _, -, -, htakes⟩ := Chunk.Assembler.takes_of_advanced hp
      exact isHandshake_of_takes htakes
    · split <;> rfl

theorem fits_step (h : Fits r.phase r.stage) : Fits (step r).2.phase (step r).2.stage := by
  obtain ⟨phase, stage, buffer, link⟩ := r
  cases h with
  | c0c1 handshake =>
    simp only [step, takeC0C1]
    split
    · exact .c0c1 handshake
    · exact .c0c1 handshake
    · split
      · exact .c0c1 _
      · exact .c2 _
  | c2 handshake =>
    simp only [step, takeC2]
    split
    · exact .c2 handshake
    · exact .c2 handshake
    · exact .chunk rfl
  | chunk hs =>
    rw [step_chunking rfl, phase_afterPart]
    exact .chunk (isHandshake_afterPart hs)

theorem Reaches.fits (h : Reaches r s) (hr : Fits r.phase r.stage) : Fits s.phase s.stage := by
  induction h with
  | refl => exact hr
  | push h input ih => exact ih
  | step h ih => exact fits_step ih
  | counted h bytes ih => exact ih

/-- There is no way back into the handshake. -/
theorem Reaches.chunking (h : Reaches r s) (hr : r.phase = .chunking) : s.phase = .chunking := by
  induction h with
  | refl => exact hr
  | push h input ih => exact ih
  | step h ih => rw [step_chunking ih, phase_afterPart, ih]
  | counted h bytes ih => exact ih

/-! ## The opening -/

/-- What comes of a whole stream: C0 and C1 as far as they go, then C2, then the chunks. -/
theorem processAll_stream (nonce : Nonce) (readSize : ReadSize)
    (hopen : session.queue.isOpen = true) (inputs : List Bytes) :
    let start := fresh nonce { readSize, session }
    let stream := inputs.flatten
    let waiting := awaitingC2 nonce session readSize (answers nonce stream)
    if stream.length < 1537 then
      ∃ left, processAll inputs start = (.ok (), { start with buffer := left })
    else if Opens stream then
      if stream.length < 3073 then
        ∃ left, processAll inputs start = (.ok (), { waiting with buffer := left })
      else if Echoes nonce stream then
        ∃ rest, rest.flatten = stream.drop 3073 ∧
          processAll inputs start
            = processAll rest (opened session readSize (answers nonce stream))
      else
        ∃ left, processAll inputs start
          = (.error (.handshake (echoError stream)), { waiting with buffer := left })
    else
      ∃ left, processAll inputs start
        = (.error (.handshake (openingError stream)), { start with buffer := left }) := by
  intro start stream waiting
  have hfirst : if stream.length < 1537 then _ else if Opens stream then _ else _ :=
    processAll_fresh nonce readSize hopen inputs
  by_cases hlen : stream.length < 1537
  · rw [if_pos hlen] at hfirst ⊢
    exact hfirst
  by_cases hopens : Opens stream
  · rw [if_neg hlen, if_pos hopens] at hfirst ⊢
    obtain ⟨rest, hrest, hrun⟩ := hfirst
    rw [hrun]
    exact processAll_awaitingC2 nonce session readSize (answers nonce stream) hrest
  · rw [if_neg hlen, if_neg hopens] at hfirst ⊢
    exact hfirst

/-- Chunks are taken behind a right C2 and nowhere else. -/
theorem phase_processAll (nonce : Nonce) (readSize : ReadSize)
    (hopen : session.queue.isOpen = true) (inputs : List Bytes) :
    (processAll inputs (fresh nonce { readSize, session })).2.phase = .chunking ↔
      3073 ≤ inputs.flatten.length ∧ Opens inputs.flatten ∧ Echoes nonce inputs.flatten := by
  have hstream : if inputs.flatten.length < 1537 then _
      else if Opens inputs.flatten then _ else _ :=
    processAll_stream nonce readSize hopen inputs
  constructor
  · intro hphase
    have hended {result : Except ConnectionError Unit} {last : Receiver} {handshake : Handshake}
        (hrun : processAll inputs (fresh nonce { readSize, session }) = (result, last))
        (hlast : last.phase = .handshaking handshake) : False := by
      rw [hrun, hlast] at hphase
      cases hphase
    split at hstream
    · exact (hended hstream.choose_spec rfl).elim
    · next hlen =>
      split at hstream
      · next hopens =>
        split at hstream
        · exact (hended hstream.choose_spec rfl).elim
        · next hlong =>
          split at hstream
          · next hechoes => exact ⟨Nat.le_of_not_lt hlong, hopens, hechoes⟩
          · exact (hended hstream.choose_spec rfl).elim
      · exact (hended hstream.choose_spec rfl).elim
  · rintro ⟨hlen, hopens, hechoes⟩
    have hlong : ¬ inputs.flatten.length < 3073 := Nat.not_lt.mpr hlen
    rw [if_neg (by omega), if_pos hopens, if_neg hlong, if_pos hechoes] at hstream
    obtain ⟨rest, -, hrun⟩ := hstream
    rw [hrun]
    exact (reaches_processAll rest .refl).chunking rfl

theorem fits_fresh (nonce : Nonce) (link : Link) :
    Fits (fresh nonce link).phase (fresh nonce link).stage := .c0c1 _

theorem Fits.iff (h : Fits r.phase r.stage) :
    (∃ handshake, r.phase = .handshaking handshake) ↔
      r.stage = .handshakeC0C1 ∨ r.stage = .handshakeC2 := by
  obtain ⟨phase, stage, buffer, link⟩ := r
  cases h with
  | c0c1 handshake => simp
  | c2 handshake => simp
  | chunk hs => cases stage <;> simp_all [ReadStage.isHandshake]

/-- What a receiver makes of a stream, by the places of the stream and however it is cut. Nothing
is sent before C0 and C1 are whole, and nothing at all if they are wrong. If they are right they get
two writes. The bytes up to 3073 then have to be the right C2, and the rest is the input of a new
assembler. The phase and the stage agree all along. -/
theorem opening_by_place (nonce : Nonce) (session : Session) (readSize : ReadSize)
    (hopen : session.queue.isOpen = true) (inputs : List Bytes) :
    let start := fresh nonce { readSize, session }
    let stream := inputs.flatten
    let run := processAll inputs start
    let replied := { session.queue with chunks := session.queue.chunks ++ answers nonce stream }
    (stream.length < 1537 → run.1 = .ok () ∧ run.2.queue = session.queue) ∧
      (1537 ≤ stream.length → ¬ Opens stream →
        run.1 = .error (.handshake (openingError stream)) ∧ run.2.queue = session.queue) ∧
      (1537 ≤ stream.length → Opens stream → stream.length < 3073 →
        run.1 = .ok () ∧ run.2.queue = replied) ∧
      (3073 ≤ stream.length → Opens stream → ¬ Echoes nonce stream →
        run.1 = .error (.handshake (echoError stream)) ∧ run.2.queue = replied) ∧
      (3073 ≤ stream.length → Opens stream → Echoes nonce stream →
        ∃ rest, rest.flatten = stream.drop 3073 ∧
          run = processAll rest (opened session readSize (answers nonce stream))) ∧
      (run.2.phase = .chunking ↔ 3073 ≤ stream.length ∧ Opens stream ∧ Echoes nonce stream) ∧
      ∀ r, Reaches start r → ((∃ handshake, r.phase = .handshaking handshake) ↔
        r.stage = .handshakeC0C1 ∨ r.stage = .handshakeC2) := by
  intro start stream run replied
  have hstream : if stream.length < 1537 then _ else if Opens stream then _ else _ :=
    processAll_stream nonce readSize hopen inputs
  refine ⟨?_, ?_, ?_, ?_, ?_, phase_processAll nonce readSize hopen inputs,
    fun r hr => (hr.fits (fits_fresh nonce _)).iff⟩
  · intro hlen
    rw [if_pos hlen] at hstream
    obtain ⟨left, hrun⟩ := hstream
    exact ⟨congrArg (·.1) hrun, congrArg (·.2.queue) hrun⟩
  · intro hlen hopens
    rw [if_neg (by omega), if_neg hopens] at hstream
    obtain ⟨left, hrun⟩ := hstream
    exact ⟨congrArg (·.1) hrun, congrArg (·.2.queue) hrun⟩
  · intro hlen hopens hshort
    rw [if_neg (by omega), if_pos hopens, if_pos hshort] at hstream
    obtain ⟨left, hrun⟩ := hstream
    exact ⟨congrArg (·.1) hrun, congrArg (·.2.queue) hrun⟩
  · intro hlen hopens hechoes
    have hlong : ¬ stream.length < 3073 := Nat.not_lt.mpr hlen
    rw [if_neg (by omega), if_pos hopens, if_neg hlong, if_neg hechoes] at hstream
    obtain ⟨left, hrun⟩ := hstream
    exact ⟨congrArg (·.1) hrun, congrArg (·.2.queue) hrun⟩
  · intro hlen hopens hechoes
    have hlong : ¬ stream.length < 3073 := Nat.not_lt.mpr hlen
    rw [if_neg (by omega), if_pos hopens, if_neg hlong, if_pos hechoes] at hstream
    exact hstream

/-- A nonce of sevens. -/
def sevens : Nonce := ⟨List.replicate 1528 7, List.length_replicate⟩

/-- C0 and C1 of the plainest kind with the front of C2, then the rest of C2 with the first byte of
a chunk. -/
def openingInTwo : List Bytes := [plainOpening ++ List.replicate 8 0, sevens.bytes ++ [2]]

theorem opening_by_place_openingInTwo :
    ({} : Session).queue.isOpen = true ∧ Opens openingInTwo.flatten ∧
      Echoes sevens openingInTwo.flatten ∧
      let link : Link := { readSize := ⟨1536, 128, false⟩, session := {} }
      let run := processAll openingInTwo (fresh sevens link)
      run.2.phase = .chunking ∧ ∃ rest, rest.flatten = [2] ∧
        run = processAll rest
          (opened {} ⟨1536, 128, false⟩ (answers sevens openingInTwo.flatten)) := by
  have hopens : Opens openingInTwo.flatten := by decide +kernel
  have hechoes : Echoes sevens openingInTwo.flatten := by decide +kernel
  have hlen : 3073 ≤ openingInTwo.flatten.length := by decide +kernel
  have hdrop : openingInTwo.flatten.drop 3073 = [2] := by decide +kernel
  obtain ⟨-, -, -, -, hbehind, hphase, -⟩ :=
    opening_by_place sevens {} ⟨1536, 128, false⟩ rfl openingInTwo
  rw [hdrop] at hbehind
  exact ⟨rfl, hopens, hechoes, hphase.mpr ⟨hlen, hopens, hechoes⟩, hbehind hlen hopens hechoes⟩

end Receiver

end RtmpEndpoint
