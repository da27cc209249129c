import RtmpEndpoint.Chunk.Assembler
import RtmpEndpoint.Proofs.Flow.Sending

/-!
# Refused requests

A refused request queues nothing. A refused message leaves no trace at all, but a chunk size that is
out of range is refused when the last header of the control chunk stream is already that of its
announcement, which the peer never gets.
-/

namespace RtmpEndpoint.Flow.SendQueue

open Chunk (Format Header Size Splitter)
open Chunk.Splitter (Fits)

/-- What the queue can be asked for. -/
inductive Request where
  | send (csid : UInt32) (payload : Payload)
  | setChunkSize (size : UInt32) (announcement : Payload)

def Request.carryOut : Request → Transition SendQueue SendError Nat
  | send csid payload => SendQueue.send csid payload
  | setChunkSize size announcement => SendQueue.setChunkSize size announcement

/-- The queue after several requests, each carried out whatever became of those before it. -/
def afterAll (requests : List Request) (q : SendQueue) : SendQueue :=
  requests.foldl (fun q request => (request.carryOut q).2) q

/-- The chunk size is out of range, and the announcement changes the last header of its chunk
stream. -/
def Request.Spoils (q : SendQueue) : Request → Prop
  | send _ _ => False
  | setChunkSize size announcement =>
    Fits Chunk.controlStreamId announcement ∧ Size.ofNat? size.toNat = none ∧
      q.splitter.headers.get? Chunk.controlStreamId
        ≠ some (q.splitter.headerFor Chunk.controlStreamId announcement)

variable {q r : SendQueue} {csid : UInt32} {payload announcement : Payload} {size : UInt32}
  {error : SendError}

/-! ## The last header -/

/-- A message with the last header once more has nothing to say about it. -/
theorem format_ofPayload (payload : Payload) (field : UInt32) :
    Splitter.format (some (.ofPayload payload field)) payload = (.type3, field) := by
  simp [Splitter.format, Header.ofPayload, Timestamp.isBefore]

/-- The header is left out as a whole only where it is the last one. -/
theorem format_ne_type3 (h : q.splitter.headers.get? csid
    ≠ some (q.splitter.headerFor csid payload)) :
    (Splitter.format (q.splitter.headers.get? csid) payload).1 ≠ .type3 := by
  intro hformat
  have hresolves := Chunk.format_resolves (q.splitter.headers.get? csid) payload
  rw [hformat] at hresolves
  exact h hresolves

theorem compressed_eq_iff (q : SendQueue) (csid : UInt32) (payload : Payload) :
    q.compressed csid payload = q
      ↔ q.splitter.headers.get? csid = some (q.splitter.headerFor csid payload) := by
  constructor
  · intro h
    have hget : (q.compressed csid payload).splitter.headers.get? csid
        = some (q.splitter.headerFor csid payload) := Table.get?_insert_self ..
    rw [← hget, h]
  · intro h
    rw [compressed, Splitter.afterMessage, Table.insert_of_get? h]

/-- The first byte of a message on the control chunk stream. -/
theorem head?_chunksFor (splitter : Splitter) (payload : Payload) :
    (splitter.chunksFor Chunk.controlStreamId payload).flatten.head? = some (UInt8.ofNat
      (64 * (Splitter.format (splitter.headers.get? Chunk.controlStreamId) payload).1.code + 2)) := by
  obtain ⟨first, more, hpieces⟩ := List.exists_cons_of_ne_nil
    (Chunk.pieces_ne_nil splitter.maxSize payload.data)
  rw [Splitter.chunksFor, hpieces]
  rfl

/-- After a header that was never sent the same message starts with another byte. -/
theorem chunksFor_compressed_ne (h : q.splitter.headers.get? Chunk.controlStreamId
    ≠ some (q.splitter.headerFor Chunk.controlStreamId payload)) :
    ((q.compressed Chunk.controlStreamId payload).splitter.chunksFor
        Chunk.controlStreamId payload).flatten
      ≠ (q.splitter.chunksFor Chunk.controlStreamId payload).flatten := by
  intro heq
  have hget : (q.compressed Chunk.controlStreamId payload).splitter.headers.get?
      Chunk.controlStreamId = some (q.splitter.headerFor Chunk.controlStreamId payload) :=
    Table.get?_insert_self ..
  have hhead := congrArg List.head? heq
  rw [head?_chunksFor, head?_chunksFor, hget, Splitter.headerFor, format_ofPayload] at hhead
  have hne := format_ne_type3 h
  generalize Splitter.format (q.splitter.headers.get? Chunk.controlStreamId) payload = chosen
    at hhead hne
  obtain ⟨format, field⟩ := chosen
  cases format with
  | type3 => exact hne rfl
  | type0 | type1 | type2 => simp [Format.code] at hhead

/-! ## What a refusal leaves -/

theorem send_refused (ho : q.isOpen = true) (h : send csid payload q = (.error error, r)) :
    r = q := by
  by_cases hf : Fits csid payload
  · rw [send_of_fits hf ho] at h
    cases (Prod.mk.inj h).1
  · obtain ⟨reason, hsend⟩ := send_of_not_fits hf
    rw [hsend q] at h
    exact (Prod.mk.inj h).2.symm

/-- Either the announcement was refused, or the size once the announcement had been split. -/
theorem setChunkSize_refused (ho : q.isOpen = true)
    (h : setChunkSize size announcement q = (.error error, r)) :
    (¬ Fits Chunk.controlStreamId announcement ∧ r = q) ∨
      (Fits Chunk.controlStreamId announcement ∧ Size.ofNat? size.toNat = none ∧
        r = q.compressed Chunk.controlStreamId announcement) := by
  by_cases hf : Fits Chunk.controlStreamId announcement
  · cases hs : Size.ofNat? size.toNat with
    | none =>
      rw [q.setChunkSize_of_none hf hs] at h
      exact .inr ⟨hf, rfl, (Prod.mk.inj h).2.symm⟩
    | some bound =>
      rw [setChunkSize_of_fits hf hs ho] at h
      cases (Prod.mk.inj h).1
  · obtain ⟨reason, hset⟩ := setChunkSize_of_not_fits size hf
    rw [hset q] at h
    exact .inl ⟨hf, (Prod.mk.inj h).2.symm⟩

/-- A refused request leaves nothing but, where it spoils it, another last header. -/
theorem refused_cases {request : Request} (ho : q.isOpen = true)
    (h : request.carryOut q = (.error error, r)) :
    (¬ request.Spoils q ∧ r = q) ∨
      (request.Spoils q ∧ ∃ announcement, Fits Chunk.controlStreamId announcement ∧
        r = q.compressed Chunk.controlStreamId announcement ∧
        q.splitter.headers.get? Chunk.controlStreamId
          ≠ some (q.splitter.headerFor Chunk.controlStreamId announcement)) := by
  cases request with
  | send csid payload => exact .inl ⟨id, send_refused ho h⟩
  | setChunkSize size announcement =>
    rcases setChunkSize_refused ho h with ⟨hf, hr⟩ | ⟨hf, hs, hr⟩
    · exact .inl ⟨fun hspoils => hf hspoils.1, hr⟩
    · by_cases hlast : q.splitter.headers.get? Chunk.controlStreamId
          = some (q.splitter.headerFor Chunk.controlStreamId announcement)
      · rw [(compressed_eq_iff ..).mpr hlast] at hr
        exact .inl ⟨fun hspoils => hspoils.2.2 hlast, hr⟩
      · exact .inr ⟨⟨hf, hs, hlast⟩, announcement, hf, hr, hlast⟩

theorem bytes_afterAll_send (hf : Fits csid payload) (ho : q.isOpen = true) :
    (afterAll [.send csid payload] q).bytes
      = q.bytes ++ (q.splitter.chunksFor csid payload).flatten := by
  have hsend : afterAll [.send csid payload] q = (send csid payload q).2 := rfl
  rw [hsend, send_of_fits hf ho, bytes_queued]

/-- A refused request queues nothing and keeps the chunk size. It keeps all last headers, and so
everything later is sent as without it, exactly when it does not spoil them. -/
theorem refused_request {request : Request} (ho : q.isOpen = true)
    (h : request.carryOut q = (.error error, r)) :
    r.chunks = q.chunks ∧ r.chunkSize = q.chunkSize ∧
      (r.splitter.headers = q.splitter.headers ↔ ¬ request.Spoils q) ∧
      ((∀ later, (afterAll later r).bytes = (afterAll later q).bytes) ↔ ¬ request.Spoils q) := by
  rcases refused_cases ho h with ⟨hspoils, rfl⟩ | ⟨hspoils, announcement, hf, rfl, hlast⟩
  · exact ⟨rfl, rfl, iff_of_true rfl hspoils, iff_of_true (fun _ => rfl) hspoils⟩
  · refine ⟨rfl, rfl, iff_of_false ?_ (not_not_intro hspoils), iff_of_false ?_
      (not_not_intro hspoils)⟩
    · intro hheaders
      have hget : (q.compressed Chunk.controlStreamId announcement).splitter.headers.get?
          Chunk.controlStreamId = some (q.splitter.headerFor Chunk.controlStreamId announcement) :=
        Table.get?_insert_self ..
      rw [hheaders] at hget
      exact hlast hget
    · intro hlater
      have hopen : (q.compressed Chunk.controlStreamId announcement).isOpen = true := ho
      have hbytes := hlater [.send Chunk.controlStreamId announcement]
      rw [bytes_afterAll_send hf hopen, bytes_afterAll_send hf ho] at hbytes
      exact chunksFor_compressed_ne hlast (List.append_cancel_left hbytes)

/-- The announcement of a chunk size of 4096. -/
def announcement4096 : Payload := ⟨.zero, .setChunkSize, 0, [0, 0, 0x10, 0]⟩

theorem fits_announcement4096 : Fits Chunk.controlStreamId announcement4096 :=
  ⟨⟨by decide, by decide⟩, by decide⟩

theorem refused_request_zero :
    Request.Spoils {} (.setChunkSize 0 announcement4096) ∧
      ∃ r : SendQueue,
        (Request.setChunkSize 0 announcement4096).carryOut {}
          = (.error (.split (.invalidMaxChunkSize 0)), r) ∧
        r.chunks = [] ∧ r.chunkSize = 128 ∧
        ¬ ∀ later, (afterAll later r).bytes = (afterAll later {}).bytes := by
  have hspoils : Request.Spoils {} (.setChunkSize 0 announcement4096) :=
    ⟨fits_announcement4096, rfl, by decide⟩
  have h : (Request.setChunkSize 0 announcement4096).carryOut {}
      = (.error (.split (.invalidMaxChunkSize 0)), compressed {} _ announcement4096) :=
    setChunkSize_of_none {} fits_announcement4096 rfl
  obtain ⟨hchunks, hsize, -, hlater⟩ := refused_request rfl h
  exact ⟨hspoils, _, h, hchunks, hsize, fun hall => hlater.mp hall hspoils⟩

/-- A refused size leaves the next announcement without a header that the peer could go by. -/
theorem announcement_after_refusal :
    (setChunkSize 0 announcement4096 {}).1 = .error (.split (.invalidMaxChunkSize 0)) ∧
      (setChunkSize 0 announcement4096 {}).2.chunks = [] ∧
      (setChunkSize 0 announcement4096 {}).2.splitter.headers.get? Chunk.controlStreamId
        ≠ ({} : SendQueue).splitter.headers.get? Chunk.controlStreamId ∧
      (setChunkSize 4096 announcement4096 (setChunkSize 0 announcement4096 {}).2).2.bytes
        = [0xc2, 0, 0, 0x10, 0] ∧
      (setChunkSize 4096 announcement4096 {}).2.bytes
        = [0x02, 0, 0, 0, 0, 0, 4, 1, 0, 0, 0, 0, 0, 0, 0x10, 0] ∧
      (({} : Chunk.Assembler).run .firstByteBasicHeader [0xc2, 0, 0, 0x10, 0]).failure
        = some (.noPreviousChunkOnStream Chunk.controlStreamId) := by
  have hrefused : setChunkSize 0 announcement4096 {} = (.error (.split (.invalidMaxChunkSize 0)),
      compressed {} _ announcement4096) := setChunkSize_of_none {} fits_announcement4096 rfl
  have hsent (q : SendQueue) (ho : q.isOpen = true) :
      (setChunkSize 4096 announcement4096 q).2.bytes = q.bytes
        ++ (q.splitter.chunksFor Chunk.controlStreamId announcement4096).flatten := by
    rw [setChunkSize_of_fits fits_announcement4096 rfl ho]
    exact bytes_queued ..
  refine ⟨by rfl, by rfl, by decide, ?_, ?_, ?_⟩
  · rw [hrefused, hsent _ rfl, Splitter.chunksFor, Chunk.pieces_last (by decide)]
    decide
  · rw [hsent _ rfl, Splitter.chunksFor, Chunk.pieces_last (by decide)]
    decide
  · cbv

end RtmpEndpoint.Flow.SendQueue
