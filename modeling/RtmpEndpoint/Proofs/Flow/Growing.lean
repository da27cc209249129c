import RtmpEndpoint.Proofs.Flow.Sending

/-!
# What is sent on a queue

Whatever is done with an open queue, chunks come to it at its end: bytes that are not chunked, or
all chunks of a message, of which the last one carries the next completion. To a queue that is
closed nothing comes.
-/

namespace RtmpEndpoint.Flow.SendQueue

open Chunk (Size)
open Chunk.Splitter (Fits)

variable {k m n : Nat} {chunks more : List QueuedChunk} {q r s : SendQueue}

/-! ## Rows of messages -/

/-- The bytes of the chunks, as they go out. -/
def bytesOf (chunks : List QueuedChunk) : Bytes := chunks.flatMap (·.bytes)

theorem bytesOf_append (chunks more : List QueuedChunk) :
    bytesOf (chunks ++ more) = bytesOf chunks ++ bytesOf more := List.flatMap_append

theorem bytesOf_cons (chunk : QueuedChunk) (chunks : List QueuedChunk) :
    bytesOf (chunk :: chunks) = chunk.bytes ++ bytesOf chunks := List.flatMap_cons

theorem completionsOf_append (chunks more : List QueuedChunk) :
    completionsOf (chunks ++ more) = completionsOf chunks ++ completionsOf more :=
  List.filterMap_append

theorem completionsOf_cons (chunk : QueuedChunk) (chunks : List QueuedChunk) :
    completionsOf (chunk :: chunks) = chunk.completion.toList ++ completionsOf chunks := by
  rw [completionsOf, List.filterMap_cons]
  cases chunk.completion <;> rfl

/-- What was queued while the next completion went from `n` to `m`. -/
inductive Sent (n : Nat) : List QueuedChunk → Nat → Prop where
  | nil : Sent n [] n
  | raw {m : Nat} {chunks : List QueuedChunk} (before : Sent n chunks m) (bytes : Bytes) :
      Sent n (chunks ++ [⟨bytes, none⟩]) m
  | message {m : Nat} {chunks : List QueuedChunk} (before : Sent n chunks m) (front : List Bytes)
      (last : Bytes) : Sent n (chunks ++ (front.map (⟨·, none⟩) ++ [⟨last, some m⟩])) (m + 1)

theorem Sent.append (h : Sent n chunks m) (h' : Sent m more k) : Sent n (chunks ++ more) k := by
  induction h' with
  | nil => rwa [List.append_nil]
  | raw before bytes ih =>
    rw [← List.append_assoc]
    exact .raw ih bytes
  | message before front last ih =>
    rw [← List.append_assoc]
    exact .message ih front last

/-- Each message has one completion, and they are numbered in order. -/
theorem Sent.completionsOf_eq (h : Sent n chunks m) :
    n ≤ m ∧ completionsOf chunks = List.range' n (m - n) := by
  induction h with
  | nil => exact ⟨Nat.le_refl n, by rw [Nat.sub_self]; rfl⟩
  | raw before bytes ih =>
    obtain ⟨hle, hnumbers⟩ := ih
    refine ⟨hle, ?_⟩
    rw [completionsOf_append, hnumbers]
    exact List.append_nil _
  | @message m chunks before front last ih =>
    obtain ⟨hle, hnumbers⟩ := ih
    refine ⟨Nat.le_succ_of_le hle, ?_⟩
    have hfront : completionsOf (front.map fun bytes => (⟨bytes, none⟩ : QueuedChunk)) = [] := by
      rw [completionsOf, List.filterMap_map]
      exact List.filterMap_eq_nil_iff.mpr fun _ _ => rfl
    rw [completionsOf_append, hnumbers, completionsOf_append, hfront, Nat.succ_sub hle,
      List.range'_1_concat, Nat.add_sub_cancel' hle]
    rfl

/-- The chunks of a message, the last one set apart. -/
theorem exists_withCompletion (n : Nat) {pieces : List Bytes} (h : pieces ≠ []) :
    ∃ front last, pieces = front ++ [last] ∧
      withCompletion n pieces = front.map (⟨·, none⟩) ++ [⟨last, some n⟩] := by
  refine ⟨pieces.dropLast, pieces.getLast h, (List.dropLast_concat_getLast h).symm, ?_⟩
  rw [withCompletion, List.getLast?_eq_some_getLast h]
  rfl

theorem Sent.withCompletion (h : Sent n chunks m) {pieces : List Bytes} (hne : pieces ≠ []) :
    Sent n (chunks ++ withCompletion m pieces) (m + 1) := by
  obtain ⟨front, last, -, hpieces⟩ := exists_withCompletion m hne
  rw [hpieces]
  exact h.message front last

/-! ## Growing -/

/-- A queue after other things came to it. -/
structure Grows (q r : SendQueue) : Prop where
  sent : ∃ more, r.chunks = q.chunks ++ more ∧ Sent q.messages more r.messages ∧
    (q.isOpen = false → more = [])
  isOpen : r.isOpen = q.isOpen
  done : r.done = q.done
  abandoned : r.abandoned = q.abandoned
  /-- Nothing is counted as written. -/
  counter : r.counter.bytes.toNat ≤ q.counter.bytes.toNat

theorem Grows.refl (q : SendQueue) : Grows q q :=
  ⟨⟨[], (List.append_nil _).symm, .nil, fun _ => rfl⟩, rfl, rfl, rfl, Nat.le_refl _⟩

theorem Grows.trans (h : Grows q r) (h' : Grows r s) : Grows q s := by
  obtain ⟨more, hchunks, hsent, hnone⟩ := h.sent
  obtain ⟨more', hchunks', hsent', hnone'⟩ := h'.sent
  refine ⟨⟨more ++ more', ?_, hsent.append hsent', fun hclosed => ?_⟩, h'.isOpen.trans h.isOpen,
    h'.done.trans h.done, h'.abandoned.trans h.abandoned, Nat.le_trans h'.counter h.counter⟩
  · rw [hchunks', hchunks, List.append_assoc]
  · rw [hnone hclosed, hnone' (h.isOpen.trans hclosed)]
    rfl

/-- How the queue splits is no part of what comes to it. -/
theorem grows_splitter (splitter : Chunk.Splitter) (q : SendQueue) :
    Grows q { q with splitter } :=
  ⟨⟨[], (List.append_nil _).symm, .nil, fun _ => rfl⟩, rfl, rfl, rfl, Nat.le_refl _⟩

theorem grows_acknowledge (bytes : UInt32) (q : SendQueue) :
    Grows q { q with counter := q.counter.acknowledge bytes } := by
  refine ⟨⟨[], (List.append_nil _).symm, .nil, fun _ => rfl⟩, rfl, rfl, rfl, ?_⟩
  rw [WriteCounter.toNat_acknowledge]
  exact Nat.sub_le _ _

theorem grows_sendRaw (bytes : Bytes) (q : SendQueue) : Grows q (sendRaw bytes q).2 := by
  unfold sendRaw
  split
  · next hopen =>
    exact ⟨⟨[⟨bytes, none⟩], rfl, .raw .nil bytes, fun hclosed => absurd hopen (by simp [hclosed])⟩,
      rfl, rfl, rfl, Nat.le_refl _⟩
  · exact .refl q

theorem grows_enqueue {pieces : List Bytes} (hne : pieces ≠ []) (q : SendQueue) :
    Grows q (enqueue pieces q).2 := by
  unfold enqueue
  split
  · next hopen =>
    refine ⟨⟨withCompletion q.messages pieces, rfl, ?_, fun hclosed => ?_⟩, rfl, rfl, rfl,
      Nat.le_refl _⟩
    · exact Sent.nil.withCompletion hne
    · exact absurd hopen (by simp [hclosed])
  · exact .refl q

theorem grows_send (csid : UInt32) (payload : Payload) (q : SendQueue) :
    Grows q (send csid payload q).2 := by
  by_cases hf : Fits csid payload
  · rw [send, Transition.bind_ok (q.split_of_fits hf)]
    exact (grows_splitter _ q).trans
      (grows_enqueue (Chunk.Splitter.chunksFor_ne_nil q.splitter csid payload) _)
  · obtain ⟨error, hsend⟩ := send_of_not_fits hf
    rw [hsend q]
    exact .refl q

theorem grows_setChunkSize (size : UInt32) (announcement : Payload) (q : SendQueue) :
    Grows q (setChunkSize size announcement q).2 := by
  by_cases hf : Fits Chunk.controlStreamId announcement
  · cases hs : Size.ofNat? size.toNat with
    | none =>
      rw [q.setChunkSize_of_none hf hs]
      exact grows_splitter _ q
    | some bound =>
      rw [setChunkSize, Transition.bind_ok (q.split_of_fits hf),
        Transition.bind_ok (setMaxSize_of_some _ hs)]
      exact (grows_splitter _ q).trans
        (grows_enqueue (Chunk.Splitter.chunksFor_ne_nil q.splitter _ announcement) _)
  · obtain ⟨error, hset⟩ := setChunkSize_of_not_fits size hf
    rw [hset q]
    exact .refl q

/-! ## Completions -/

/-- A message that was sent has the next completion. -/
theorem send_number {csid : UInt32} {payload : Payload} (h : send csid payload q = (.ok n, r)) :
    n = q.messages ∧
      r.chunks = q.chunks ++ withCompletion n (q.splitter.chunksFor csid payload) := by
  obtain ⟨hfits, rfl⟩ := send_ok h
  have hnumber : n = q.messages := by
    cases hopen : q.isOpen with
    | true =>
      rw [send_of_fits hfits hopen] at h
      exact (Except.ok.inj (Prod.mk.inj h).1).symm
    | false =>
      rw [send_of_not_isOpen hfits hopen] at h
      cases (Prod.mk.inj h).1
  exact ⟨hnumber, by rw [hnumber]; rfl⟩

theorem setChunkSize_number {size : UInt32} {announcement : Payload}
    (h : setChunkSize size announcement q = (.ok n, r)) :
    n = q.messages ∧ r.chunks = q.chunks
      ++ withCompletion n (q.splitter.chunksFor Chunk.controlStreamId announcement) := by
  obtain ⟨hfits, bound, hsize, rfl⟩ := setChunkSize_ok h
  have hnumber : n = q.messages := by
    cases hopen : q.isOpen with
    | true =>
      rw [setChunkSize_of_fits hfits hsize hopen] at h
      exact (Except.ok.inj (Prod.mk.inj h).1).symm
    | false =>
      rw [setChunkSize_of_not_isOpen hfits hsize hopen] at h
      cases (Prod.mk.inj h).1
  exact ⟨hnumber, by rw [hnumber]; rfl⟩

/-! ## What holds of a queue however it is used -/

/-- Nothing that is sent does away with it, nor does an acknowledgement. -/
structure Stable (p : SendQueue → Prop) : Prop where
  sendRaw : ∀ bytes q, p q → p (sendRaw bytes q).2
  send : ∀ csid payload q, p q → p (send csid payload q).2
  setChunkSize : ∀ size announcement q, p q → p (setChunkSize size announcement q).2
  acknowledge : ∀ bytes q, p q → p { q with counter := q.counter.acknowledge bytes }

theorem stable_grows (q : SendQueue) : Stable (Grows q) where
  sendRaw bytes r h := h.trans (grows_sendRaw bytes r)
  send csid payload r h := h.trans (grows_send csid payload r)
  setChunkSize size announcement r h := h.trans (grows_setChunkSize size announcement r)
  acknowledge bytes r h := h.trans (grows_acknowledge bytes r)

end RtmpEndpoint.Flow.SendQueue
