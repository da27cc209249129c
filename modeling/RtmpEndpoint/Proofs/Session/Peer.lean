import RtmpEndpoint.Proofs.Chunk.Agreement
import RtmpEndpoint.Proofs.Flow.Sending
import RtmpEndpoint.Session.Basic

/-!
# The peer of a session

What a session sends is read by a peer that starts with nothing and changes its chunk size when an
announcement is complete. The announcement itself still goes out at the old size, so both sides
change at the same place.
-/

namespace RtmpEndpoint.Session

open Chunk (Assembler AssembleError InStep Reaction Reception Size)

/-! ## Calls -/

/-- A call that sends something. Calls of several callers come one after the other, in the order in
which they got hold of the queue. -/
inductive Call where
  | sendMessage (csid streamId : UInt32) (timestamp : Timestamp) (message : Message)
  | setWriteChunkSize (size : UInt32)

namespace Call

/-- Only the session itself announces chunk sizes. -/
def IsOrdinary : Call → Prop
  | sendMessage _ _ _ message => message.tag ≠ .setChunkSize
  | setWriteChunkSize _ => True

def carryOut : Call → Action Nat
  | sendMessage csid streamId timestamp message =>
    Session.sendMessage csid streamId timestamp message
  | setWriteChunkSize size => Session.setWriteChunkSize size

/-- The payload that the call encodes, if it can be encoded. -/
def payload? : Call → Option Payload
  | sendMessage _ streamId timestamp message =>
    match Message.encode message with
    | .ok (tag, data) => some ⟨timestamp, tag, streamId, data⟩
    | .error _ => none
  | setWriteChunkSize size =>
    match Message.encode (.setChunkSize size) with
    | .ok (tag, data) => some ⟨.zero, tag, controlMessageStreamId, data⟩
    | .error _ => none

end Call

/-- The calls one after the other, up to one that fails. -/
def carryOutAll : List Call → Action Unit
  | [] => pure ()
  | call :: calls => do
    let _ ← call.carryOut
    carryOutAll calls

/-- The session before anything is sent. -/
def unsent (s : Session) : Session := { s with queue := {} }

/-- A peer changes its chunk size as soon as an announcement is complete. -/
def obey : Reaction := fun payload a =>
  match Message.decode payload.tag payload.data with
  | .ok (.setChunkSize size) => a.setMaxSize size.toNat
  | _ => .ok a

/-! ## What a successful call does -/

variable {s t : Session} {n : Nat}

theorem onQueue_ok {α : Type} {x : Transition Flow.SendQueue Flow.SendError α} {result : α}
    (h : onQueue x s = (.ok result, t)) :
    x s.queue = (.ok result, t.queue) := by
  unfold onQueue Transition.focus at h
  split at h
  · next answer queue hx =>
    obtain ⟨hanswer, rfl⟩ := Prod.mk.inj h
    rw [hx, Except.ok.inj hanswer]
  · cases (Prod.mk.inj h).1

theorem tag_encode {message : Message} {tag : Message.Tag} {data : Bytes}
    (h : Message.encode message = .ok (tag, data)) : tag = message.tag := by
  unfold Message.encode at h
  split at h
  · cases h
    rfl
  · cases h

/-- A message that was sent could be encoded and is queued as its payload. -/
theorem sendMessage_ok {csid streamId : UInt32} {timestamp : Timestamp} {message : Message}
    (h : sendMessage csid streamId timestamp message s = (.ok n, t)) :
    ∃ payload, (Call.sendMessage csid streamId timestamp message).payload? = some payload ∧
      payload.tag = message.tag ∧ Chunk.Splitter.Fits csid payload ∧
      t.queue = s.queue.queued csid payload := by
  cases he : Message.encode message with
  | error error =>
    have hencode : encode message s = (.error (.encode error), s) := by rw [encode, he]
    rw [sendMessage, Transition.bind_error hencode] at h
    cases (Prod.mk.inj h).1
  | ok encoded =>
    obtain ⟨tag, data⟩ := encoded
    have hencode : encode message s = (.ok (tag, data), s) := by rw [encode, he]
    rw [sendMessage, Transition.bind_ok hencode] at h
    obtain ⟨hfits, hqueue⟩ := Flow.SendQueue.send_ok (onQueue_ok h)
    exact ⟨_, by simp only [Call.payload?, he], tag_encode he, hfits, hqueue⟩

/-- The announcement of a chunk size. -/
def announcement (size : UInt32) : Payload :=
  ⟨.zero, .setChunkSize, controlMessageStreamId, Bytes.ofUInt32 (size &&& Message.chunkSizeMask)⟩

theorem setWriteChunkSize_ok {size : UInt32} (h : setWriteChunkSize size s = (.ok n, t)) :
    Chunk.Splitter.Fits Chunk.controlStreamId (announcement size) ∧
      ∃ bound, Size.ofNat? size.toNat = some bound ∧
        t.queue = (s.queue.queued Chunk.controlStreamId (announcement size)).resized bound :=
  Flow.SendQueue.setChunkSize_ok (onQueue_ok h)

/-! ## What the peer does with it -/

/-- Only a body of that type is read as the announcement of a chunk size. -/
theorem tag_decode {tag : Message.Tag} {data : Bytes} {size : UInt32}
    (h : Message.decode tag data = .ok (.setChunkSize size)) : tag = .setChunkSize := by
  unfold Message.decode at h
  split at h
  case h_1 => rfl
  case h_6 =>
    obtain ⟨⟨number, rest⟩, -, h⟩ := Amf0.bind_eq_ok.mp h
    dsimp only at h
    split at h
    · cases h
    · split at h <;> cases h
  case h_9 =>
    obtain ⟨values, -, h⟩ := Amf0.bind_eq_ok.mp h
    obtain ⟨command, -, h⟩ := Amf0.bind_eq_ok.mp h
    cases h
  case h_10 =>
    obtain ⟨values, -, h⟩ := Amf0.bind_eq_ok.mp h
    obtain ⟨command, -, h⟩ := Amf0.bind_eq_ok.mp h
    cases h
  case h_7 | h_8 | h_13 => cases h
  all_goals
    obtain ⟨value, -, h⟩ := Amf0.bind_eq_ok.mp h
    cases h

/-- Messages of other types change nothing. -/
theorem obey_of_ne {payload : Payload} (h : payload.tag ≠ .setChunkSize) (a : Assembler) :
    obey payload a = .ok a := by
  unfold obey
  split
  · next size hd => exact absurd (tag_decode hd) h
  · rfl

/-- The peer takes up the announced size. -/
theorem obey_announcement {size : UInt32} {bound : Size}
    (h : Size.ofNat? size.toNat = some bound) (a : Assembler) :
    obey (announcement size) a = .ok { a with maxSize := bound } := by
  have hle : size.toNat ≤ 0x7fffffff := by
    unfold Size.ofNat? at h
    split at h
    · next hb => exact hb.2
    · cases h
  have hread : Message.readUInt32 (Bytes.ofUInt32 size) = .ok (size, []) := by
    simpa using Message.readUInt32_ofUInt32 size []
  have hdecode : Message.decode .setChunkSize (announcement size).data = .ok (.setChunkSize size) := by
    simp only [announcement, Message.and_chunkSizeMask hle, Message.decode, hread]
    simp only [Bind.bind, Except.bind, Message.and_chunkSizeMask hle]
    rfl
  have htag : (announcement size).tag = .setChunkSize := rfl
  simp only [obey, htag, hdecode, Assembler.setMaxSize, h]

/-- A peer in agreement reads what a call has queued as the payload of the call. -/
theorem follow_call {call : Call} {a : Assembler} (ho : call.IsOrdinary)
    (h : call.carryOut s = (.ok n, t)) (hin : InStep s.queue.splitter a) :
    ∃ payload sent b, call.payload? = some payload ∧ t.queue.bytes = s.queue.bytes ++ sent ∧
      InStep t.queue.splitter b ∧
      ∀ rest, a.follow obey .firstByteBasicHeader (sent ++ rest)
        = (b.follow obey .firstByteBasicHeader rest).after payload := by
  cases call with
  | sendMessage csid streamId timestamp message =>
    obtain ⟨payload, hpayload, htag, hfits, hqueue⟩ := sendMessage_ok h
    obtain ⟨b, hin', hread⟩ := hin.follow_message hfits
    have hne : payload.tag ≠ .setChunkSize := by
      rw [htag]
      exact ho
    have hobey := obey_of_ne hne b
    refine ⟨payload, (s.queue.splitter.chunksFor csid payload).flatten, b, hpayload, ?_, ?_, ?_⟩
    · rw [hqueue, Flow.SendQueue.bytes_queued]
    · rw [hqueue]
      exact hin'
    · intro rest
      rw [hread]
      simp only [Assembler.resume, hobey]
  | setWriteChunkSize size =>
    obtain ⟨hfits, bound, hbound, hqueue⟩ := setWriteChunkSize_ok h
    obtain ⟨b, hin', hread⟩ := hin.follow_message hfits
    have hobey := obey_announcement hbound b
    refine ⟨announcement size,
      (s.queue.splitter.chunksFor Chunk.controlStreamId (announcement size)).flatten,
      { b with maxSize := bound }, rfl, ?_, ?_, ?_⟩
    · rw [hqueue]
      exact Flow.SendQueue.bytes_queued ..
    · rw [hqueue]
      exact hin'.resize bound
    · intro rest
      rw [hread]
      simp only [Assembler.resume, hobey]

theorem carryOutAll_cons_ok {call : Call} {calls : List Call}
    (h : (carryOutAll (call :: calls) s).1 = .ok ()) :
    ∃ n t, call.carryOut s = (.ok n, t) ∧ (carryOutAll calls t).1 = .ok () ∧
      (carryOutAll (call :: calls) s).2 = (carryOutAll calls t).2 := by
  cases hc : call.carryOut s with
  | mk result t =>
    cases result with
    | error error =>
      rw [carryOutAll, Transition.bind_error hc] at h
      cases h
    | ok n =>
      rw [carryOutAll, Transition.bind_ok hc] at h ⊢
      exact ⟨n, t, rfl, h, rfl⟩

/-- Agreement carries over from call to call. -/
theorem follow_calls {calls : List Call} {a : Assembler}
    (ho : ∀ call ∈ calls, call.IsOrdinary) (h : (carryOutAll calls s).1 = .ok ())
    (hin : InStep s.queue.splitter a) :
    ∃ payloads sent b, calls.map Call.payload? = payloads.map some ∧
      (carryOutAll calls s).2.queue.bytes = s.queue.bytes ++ sent ∧
      a.follow obey .firstByteBasicHeader sent
        = ⟨payloads, .firstByteBasicHeader, [], none, b⟩ := by
  induction calls generalizing s a with
  | nil => exact ⟨[], [], a, rfl, (List.append_nil _).symm, Assembler.follow_nil _ a⟩
  | cons call calls ih =>
    obtain ⟨n, t, hcall, hrest, hstate⟩ := carryOutAll_cons_ok h
    obtain ⟨hfirst, hmore⟩ := List.forall_mem_cons.mp ho
    obtain ⟨payload, sent, b, hpayload, hbytes, hin', hread⟩ := follow_call hfirst hcall hin
    obtain ⟨payloads, later, c, hpayloads, hbytes', hread'⟩ := ih hmore hrest hin'
    refine ⟨payload :: payloads, sent ++ later, c, ?_, ?_, ?_⟩
    · rw [List.map_cons, List.map_cons, hpayload, hpayloads]
    · rw [hstate, hbytes', hbytes, List.append_assoc]
    · rw [hread, hread']
      rfl

/-- Whatever is sent and however often the chunk size changes, a fresh peer that changes its own
with each announcement recovers the payloads of all calls in order. -/
theorem peer_recovers_calls (s : Session) (calls : List Call)
    (ho : ∀ call ∈ calls, call.IsOrdinary)
    (h : (carryOutAll calls s.unsent).1 = .ok ()) :
    let queued := (carryOutAll calls s.unsent).2.queue.bytes
    let peer := ({} : Assembler).follow obey .firstByteBasicHeader queued
    peer.failure = none ∧ peer.stage = .firstByteBasicHeader ∧ peer.rest = [] ∧
      peer.payloads.map some = calls.map Call.payload? := by
  have hin : InStep s.unsent.queue.splitter {} := Chunk.inStep_fresh
  obtain ⟨payloads, sent, b, hpayloads, hbytes, hread⟩ := follow_calls ho h hin
  intro queued peer
  have hqueued : queued = sent := hbytes
  have hpeer : peer = ⟨payloads, .firstByteBasicHeader, [], none, b⟩ := by
    rw [← hread, ← hqueued]
  rw [hpeer]
  exact ⟨rfl, rfl, rfl, hpayloads.symm⟩

/-- A chunk size of one byte, a message on the chunk stream of the announcements, and another size. -/
def resizingCalls : List Call :=
  [.setWriteChunkSize 1, .sendMessage 2 0 .zero (.windowAcknowledgementSize 5000),
    .setWriteChunkSize 4096, .sendMessage 4 1 ⟨40⟩ (.audio [7, 7, 7])]

theorem peer_recovers_resizingCalls :
    (∀ call ∈ resizingCalls, call.IsOrdinary) ∧
      (carryOutAll resizingCalls (unsent {})).1 = .ok () ∧
      (({} : Assembler).follow obey .firstByteBasicHeader
        (carryOutAll resizingCalls (unsent {})).2.queue.bytes).payloads
        = [announcement 1, ⟨.zero, .windowAcknowledgementSize, 0, [0, 0, 0x13, 0x88]⟩,
          announcement 4096, ⟨⟨40⟩, .audio, 1, [7, 7, 7]⟩] := by
  have ho : ∀ call ∈ resizingCalls, call.IsOrdinary := by
    simp [resizingCalls, Call.IsOrdinary, Message.tag]
  have h : (carryOutAll resizingCalls (unsent {})).1 = .ok () := by cbv
  have hencoded : resizingCalls.map Call.payload?
      = [announcement 1, ⟨.zero, .windowAcknowledgementSize, 0, [0, 0, 0x13, 0x88]⟩,
          announcement 4096, ⟨⟨40⟩, .audio, 1, [7, 7, 7]⟩].map some := by decide
  obtain ⟨-, -, -, hpayloads⟩ := peer_recovers_calls {} resizingCalls ho h
  have hmap := hpayloads.trans hencoded
  exact ⟨ho, h, (List.map_inj_right fun _ _ => Option.some.inj).mp hmap⟩

end RtmpEndpoint.Session
