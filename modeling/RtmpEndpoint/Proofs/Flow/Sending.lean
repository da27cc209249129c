import RtmpEndpoint.Flow.SendQueue
import RtmpEndpoint.Proofs.Chunk.Splitting

/-!
# What sending does to the queue

Sending a message and changing the chunk size, case by case. A message is refused for what a header
has no room for; a chunk size is judged only after its announcement has been split.
-/

namespace RtmpEndpoint.Flow.SendQueue

open Chunk (Size)
open Chunk.Splitter (Fits)

/-- The queue with a message behind everything else. -/
def queued (q : SendQueue) (csid : UInt32) (payload : Payload) : SendQueue :=
  { q with
    splitter := q.splitter.afterMessage csid payload
    chunks := q.chunks ++ withCompletion q.messages (q.splitter.chunksFor csid payload)
    messages := q.messages + 1 }

/-- The queue with the last header of a chunk stream taken from a message that is not in it. -/
def compressed (q : SendQueue) (csid : UInt32) (payload : Payload) : SendQueue :=
  { q with splitter := q.splitter.afterMessage csid payload }

/-- The queue with another chunk size. -/
def resized (q : SendQueue) (size : Size) : SendQueue :=
  { q with splitter := { q.splitter with maxSize := size } }

variable {q : SendQueue} {csid : UInt32} {payload announcement : Payload} {size : UInt32}

theorem split_of_fits (q : SendQueue) (h : Fits csid payload) :
    split csid payload q
      = (.ok (q.splitter.chunksFor csid payload), q.compressed csid payload) := by
  rw [split, Chunk.Splitter.split_of_fits q.splitter h]
  rfl

theorem split_of_not_fits (h : ¬ Fits csid payload) :
    ∃ error, ∀ q, split csid payload q = (.error (.split error), q) := by
  obtain ⟨error, hsplit⟩ := Chunk.Splitter.split_of_not_fits h
  exact ⟨error, fun q => by rw [split, hsplit q.splitter]⟩

theorem setMaxSize_of_some {bound : Size} (q : SendQueue)
    (h : Size.ofNat? size.toNat = some bound) : setMaxSize size q = (.ok (), q.resized bound) := by
  rw [setMaxSize, Chunk.Splitter.setMaxSize, h]
  rfl

theorem setMaxSize_of_none (q : SendQueue) (h : Size.ofNat? size.toNat = none) :
    setMaxSize size q = (.error (.split (.invalidMaxChunkSize size)), q) := by
  rw [setMaxSize, Chunk.Splitter.setMaxSize, h]

theorem enqueue_of_isOpen (chunks : List Bytes) (h : q.isOpen = true) :
    enqueue chunks q = (.ok q.messages, { q with
      chunks := q.chunks ++ withCompletion q.messages chunks
      messages := q.messages + 1 }) := by
  rw [enqueue, if_pos h]

theorem enqueue_of_not_isOpen (chunks : List Bytes) (h : q.isOpen = false) :
    enqueue chunks q = (.error .closed, q) := by
  rw [enqueue, h]
  rfl

/-! ## Messages -/

theorem send_of_fits (h : Fits csid payload) (ho : q.isOpen = true) :
    send csid payload q = (.ok q.messages, q.queued csid payload) := by
  have hopen : (q.compressed csid payload).isOpen = true := ho
  rw [send, Transition.bind_ok (q.split_of_fits h), enqueue_of_isOpen _ hopen]
  rfl

theorem send_of_not_fits (h : ¬ Fits csid payload) :
    ∃ error, ∀ q, send csid payload q = (.error (.split error), q) := by
  obtain ⟨error, hsplit⟩ := split_of_not_fits h
  exact ⟨error, fun q => Transition.bind_error (hsplit q)⟩

/-- A queue that is closed refuses every message. -/
theorem send_of_not_isOpen (h : Fits csid payload) (ho : q.isOpen = false) :
    send csid payload q = (.error .closed, q.compressed csid payload) := by
  have hopen : (q.compressed csid payload).isOpen = false := ho
  rw [send, Transition.bind_ok (q.split_of_fits h), enqueue_of_not_isOpen _ hopen]

/-- A message that was sent fits, and the queue is that of before with it at the end. -/
theorem send_ok {n : Nat} {r : SendQueue} (h : send csid payload q = (.ok n, r)) :
    Fits csid payload ∧ r = q.queued csid payload := by
  by_cases hf : Fits csid payload
  · cases ho : q.isOpen with
    | true =>
      rw [send_of_fits hf ho] at h
      exact ⟨hf, (Prod.mk.inj h).2.symm⟩
    | false =>
      rw [send_of_not_isOpen hf ho] at h
      cases (Prod.mk.inj h).1
  · obtain ⟨error, hsend⟩ := send_of_not_fits hf
    rw [hsend q] at h
    cases (Prod.mk.inj h).1

/-! ## Chunk sizes -/

theorem setChunkSize_of_fits {bound : Size} (h : Fits Chunk.controlStreamId announcement)
    (hs : Size.ofNat? size.toNat = some bound) (ho : q.isOpen = true) :
    setChunkSize size announcement q
      = (.ok q.messages, (q.queued Chunk.controlStreamId announcement).resized bound) := by
  have hopen : ((q.compressed Chunk.controlStreamId announcement).resized bound).isOpen = true := ho
  rw [setChunkSize, Transition.bind_ok (q.split_of_fits h),
    Transition.bind_ok (setMaxSize_of_some _ hs), enqueue_of_isOpen _ hopen]
  rfl

theorem setChunkSize_of_not_fits (size : UInt32)
    (h : ¬ Fits Chunk.controlStreamId announcement) :
    ∃ error, ∀ q, setChunkSize size announcement q = (.error (.split error), q) := by
  obtain ⟨error, hsplit⟩ := split_of_not_fits h
  exact ⟨error, fun q => Transition.bind_error (hsplit q)⟩

/-- A chunk size that is out of range is refused when the announcement has left its header. -/
theorem setChunkSize_of_none (q : SendQueue) (h : Fits Chunk.controlStreamId announcement)
    (hs : Size.ofNat? size.toNat = none) :
    setChunkSize size announcement q = (.error (.split (.invalidMaxChunkSize size)),
      q.compressed Chunk.controlStreamId announcement) := by
  rw [setChunkSize, Transition.bind_ok (q.split_of_fits h),
    Transition.bind_error (setMaxSize_of_none _ hs)]

theorem setChunkSize_of_not_isOpen {bound : Size} (h : Fits Chunk.controlStreamId announcement)
    (hs : Size.ofNat? size.toNat = some bound) (ho : q.isOpen = false) :
    setChunkSize size announcement q = (.error .closed,
      (q.compressed Chunk.controlStreamId announcement).resized bound) := by
  have hopen : ((q.compressed Chunk.controlStreamId announcement).resized bound).isOpen = false := ho
  rw [setChunkSize, Transition.bind_ok (q.split_of_fits h),
    Transition.bind_ok (setMaxSize_of_some _ hs), enqueue_of_not_isOpen _ hopen]

theorem setChunkSize_ok {n : Nat} {r : SendQueue}
    (h : setChunkSize size announcement q = (.ok n, r)) :
    Fits Chunk.controlStreamId announcement ∧ ∃ bound, Size.ofNat? size.toNat = some bound ∧
      r = (q.queued Chunk.controlStreamId announcement).resized bound := by
  by_cases hf : Fits Chunk.controlStreamId announcement
  · cases hs : Size.ofNat? size.toNat with
    | none =>
      rw [q.setChunkSize_of_none hf hs] at h
      cases (Prod.mk.inj h).1
    | some bound =>
      cases ho : q.isOpen with
      | true =>
        rw [setChunkSize_of_fits hf hs ho] at h
        exact ⟨hf, bound, rfl, (Prod.mk.inj h).2.symm⟩
      | false =>
        rw [setChunkSize_of_not_isOpen hf hs ho] at h
        cases (Prod.mk.inj h).1
  · obtain ⟨error, hset⟩ := setChunkSize_of_not_fits size hf
    rw [hset q] at h
    cases (Prod.mk.inj h).1

/-! ## The queued bytes -/

/-- Everything that waits for the writer, as it goes out. -/
def bytes (q : SendQueue) : Bytes := q.chunks.flatMap (·.bytes)

theorem bytes_withCompletion (completion : Nat) (chunks : List Bytes) :
    (withCompletion completion chunks).flatMap (·.bytes) = chunks.flatten := by
  cases hc : chunks.getLast? with
  | none =>
    rw [List.getLast?_eq_none_iff.mp hc]
    rfl
  | some last =>
    have hmap (front : List Bytes) :
        (front.map fun chunk => (⟨chunk, none⟩ : QueuedChunk)).flatMap (·.bytes)
          = front.flatten := by
      rw [List.flatMap_map, List.flatMap_id']
    obtain ⟨front, rfl⟩ := List.getLast?_eq_some_iff.mp hc
    simp [withCompletion, hmap]

theorem bytes_queued (q : SendQueue) (csid : UInt32) (payload : Payload) :
    (q.queued csid payload).bytes = q.bytes ++ (q.splitter.chunksFor csid payload).flatten := by
  rw [bytes, queued, List.flatMap_append, bytes_withCompletion]
  rfl

end RtmpEndpoint.Flow.SendQueue
