import RtmpEndpoint.Proofs.Chunk.Awaited

/-!
# What a writer sends

A message is cut into full pieces and a last one. Its chunks are what a reader with the same last
header on the chunk stream waits for.
-/

namespace RtmpEndpoint.Chunk

/-! ## Pieces -/

theorem piecesOnto_last {size : Size} {body : Bytes} (h : body.length ≤ size.value)
    (cut : List Bytes) : piecesOnto size cut body = cut.reverse ++ [body] := by
  rw [piecesOnto]
  simp [h]

theorem piecesOnto_full {size : Size} {body : Bytes} (h : size.value < body.length)
    (cut : List Bytes) :
    piecesOnto size cut body
      = piecesOnto size (body.take size.value :: cut) (body.drop size.value) := by
  rw [piecesOnto]
  simp [Nat.not_le.mpr h]

/-- The pieces that were cut before stand in front. -/
theorem piecesOnto_eq (size : Size) (cut : List Bytes) (body : Bytes) :
    piecesOnto size cut body = cut.reverse ++ pieces size body := by
  have hpos := size.pos
  induction hn : body.length using Nat.strongRecOn generalizing cut body with
  | _ n ih =>
    rw [pieces]
    by_cases h : body.length ≤ size.value
    · rw [piecesOnto_last h, piecesOnto_last h]
      rfl
    · have hlt : (body.drop size.value).length < n := by
        rw [List.length_drop]
        omega
      have hfull : size.value < body.length := by omega
      rw [piecesOnto_full hfull, piecesOnto_full hfull, ih _ hlt _ _ rfl, ih _ hlt _ _ rfl]
      simp

theorem pieces_last {size : Size} {body : Bytes} (h : body.length ≤ size.value) :
    pieces size body = [body] := piecesOnto_last h []

theorem pieces_full {size : Size} {body : Bytes} (h : size.value < body.length) :
    pieces size body = body.take size.value :: pieces size (body.drop size.value) := by
  rw [pieces, piecesOnto_full h, piecesOnto_eq]
  rfl

theorem pieces_ne_nil (size : Size) (body : Bytes) : pieces size body ≠ [] := by
  by_cases h : body.length ≤ size.value
  · simp [pieces_last h]
  · simp [pieces_full (Nat.lt_of_not_le h)]

/-- As many pieces as it takes, and one for an empty body. -/
theorem length_pieces (size : Size) (body : Bytes) :
    (pieces size body).length = max 1 ((body.length + size.value - 1) / size.value) := by
  have hpos := size.pos
  induction hn : body.length using Nat.strongRecOn generalizing body with
  | _ n ih =>
    by_cases h : body.length ≤ size.value
    · have hone : (n + size.value - 1) / size.value ≤ 1 := by
        apply Nat.le_of_lt_succ
        rw [Nat.div_lt_iff_lt_mul hpos]
        omega
      rw [pieces_last h]
      simp only [List.length_cons, List.length_nil]
      omega
    · have hlen : (body.drop size.value).length = n - size.value := by rw [List.length_drop, hn]
      have hstep : (n + size.value - 1) / size.value
          = (n - size.value + size.value - 1) / size.value + 1 := by
        rw [show n + size.value - 1 = n - size.value + size.value - 1 + size.value by omega]
        exact Nat.add_div_right _ hpos
      have hone : 1 ≤ (n - size.value + size.value - 1) / size.value := by
        rw [Nat.one_le_div_iff hpos]
        omega
      rw [pieces_full (by omega), List.length_cons, ih _ (by omega) _ hlen]
      omega

/-! ## The header of a message -/

/-- The header that a message is sent with, given its timestamp quantity. -/
def Header.ofPayload (payload : Payload) (field : UInt32) : Header :=
  ⟨payload.timestamp, payload.data.length, payload.tag, payload.streamId, field⟩

/-- The chosen format says what the header means after the previous one. -/
theorem format_resolves (previous : Option Header) (payload : Payload) :
    (Splitter.format previous payload).1.Resolves previous
      (.ofPayload payload (Splitter.format previous payload).2) := by
  unfold Splitter.format
  cases previous with
  | none => rfl
  | some before =>
    have htime := Timestamp.advance_since payload.timestamp before.timestamp
    dsimp only
    split
    · rfl
    · next hzero =>
      rw [not_or, Decidable.not_not] at hzero
      split
      · exact ⟨before, rfl, hzero.1, htime⟩
      · next hone =>
        rw [not_or, Decidable.not_not, Decidable.not_not] at hone
        split
        · exact ⟨before, rfl, hzero.1, hone.2, hone.1, htime⟩
        · next htwo =>
          rw [Decidable.not_not] at htwo
          change some before = some (.ofPayload payload before.timestampField)
          rw [Header.ofPayload, htwo, ← hone.2, ← hone.1, ← hzero.1]

/-! ## The chunks of a message -/

theorem chunks_cons (csid : UInt32) (format : Format) (header : Header) (first second : Bytes)
    (more : List Bytes) :
    Splitter.chunks csid format header (first :: second :: more)
      = (head format csid header ++ first)
        :: Splitter.chunks csid .type3 header (second :: more) := by
  simp [Splitter.chunks, head, Header.fields]

@[simp] theorem length_chunks (csid : UInt32) (format : Format) (header : Header)
    (pieces : List Bytes) : (Splitter.chunks csid format header pieces).length = pieces.length := by
  cases pieces <;> simp [Splitter.chunks]

/-- Chunks of one message, the last of which completes it. -/
def wire (csid : UInt32) (payload : Payload) : (chunks : List Bytes) → List WireChunk
  | [] => []
  | [bytes] => [⟨csid, bytes, some payload⟩]
  | bytes :: more => ⟨csid, bytes, none⟩ :: wire csid payload more

theorem wire_cons {more : List Bytes} (csid : UInt32) (payload : Payload) (bytes : Bytes)
    (h : more ≠ []) :
    wire csid payload (bytes :: more) = ⟨csid, bytes, none⟩ :: wire csid payload more := by
  cases more with
  | nil => exact absurd rfl h
  | cons second more => rfl

theorem csid_of_mem_wire {csid : UInt32} {payload : Payload} {chunks : List Bytes}
    {chunk : WireChunk} (h : chunk ∈ wire csid payload chunks) : chunk.csid = csid := by
  induction chunks with
  | nil => cases h
  | cons bytes more ih =>
    by_cases hm : more = []
    · subst hm
      rw [List.mem_singleton.mp h]
    · rw [wire_cons csid payload bytes hm] at h
      cases List.mem_cons.mp h with
      | inl h => rw [h]
      | inr h => exact ih h

theorem bytes_wire (csid : UInt32) (payload : Payload) (chunks : List Bytes) :
    (wire csid payload chunks).map (·.bytes) = chunks := by
  induction chunks with
  | nil => rfl
  | cons bytes more ih =>
    by_cases hm : more = []
    · subst hm
      rfl
    · rw [wire_cons csid payload bytes hm, List.map_cons, ih]

/-- A message that has chunks is completed once. -/
theorem completes_wire {chunks : List Bytes} (csid : UInt32) (payload : Payload)
    (h : chunks ≠ []) : (wire csid payload chunks).filterMap (·.completes) = [payload] := by
  induction chunks with
  | nil => exact absurd rfl h
  | cons bytes more ih =>
    by_cases hm : more = []
    · subst hm
      rfl
    · rw [wire_cons csid payload bytes hm, List.filterMap_cons, ih hm]

/-- The rest of a message is awaited by a reader that has the part before it. -/
theorem awaits_wire {size : Size} {csid : UInt32} {previous : Option Header} {got : Option Bytes}
    {format : Format} {header : Header} {body : Bytes} {more : List WireChunk}
    {final : Option Header} (readable : Readable previous got format csid header)
    (whole : (got.getD []).length + body.length = header.length)
    (next : Awaits size csid (some header) none more final) :
    Awaits size csid previous got
      (wire csid (header.payload (got.getD [] ++ body))
        (Splitter.chunks csid format header (pieces size body)) ++ more) final := by
  have hpos := size.pos
  induction hn : body.length using Nat.strongRecOn generalizing previous got format body with
  | _ n ih =>
    by_cases h : body.length ≤ size.value
    · rw [pieces_last h]
      exact .last readable h whole next
    · have hfull : size.value < body.length := by omega
      have htake : (body.take size.value).length = size.value := by
        rw [List.length_take]
        omega
      have hdrop : (body.drop size.value).length = n - size.value := by rw [List.length_drop, hn]
      obtain ⟨second, later, hpieces⟩ := List.exists_cons_of_ne_nil
        (pieces_ne_nil size (body.drop size.value))
      have hcontinues : Readable (some header) (some (got.getD [] ++ body.take size.value)) .type3
          csid header := ⟨readable.inRange, readable.length_le, rfl, .inl rfl⟩
      have hremains : ((some (got.getD [] ++ body.take size.value)).getD []).length
          + (body.drop size.value).length = header.length := by
        rw [Option.getD_some, List.length_append]
        omega
      have hrest := ih (n - size.value) (by omega) hcontinues hremains hdrop
      rw [Option.getD_some, List.append_assoc, List.take_append_drop, hpieces] at hrest
      have hne : Splitter.chunks csid .type3 header (second :: later) ≠ [] := by
        simp [Splitter.chunks]
      rw [pieces_full hfull, hpieces, chunks_cons, wire_cons _ _ _ hne, List.cons_append]
      exact .part readable htake (by omega) hrest

/-! ## Splitting -/

namespace Splitter

variable {splitter : Splitter} {csid : UInt32} {payload : Payload}

/-- The header that the splitter gives a message. -/
def headerFor (splitter : Splitter) (csid : UInt32) (payload : Payload) : Header :=
  .ofPayload payload (format (splitter.headers.get? csid) payload).2

/-- The chunks that the splitter makes of a message that fits. -/
def chunksFor (splitter : Splitter) (csid : UInt32) (payload : Payload) : List Bytes :=
  Splitter.chunks csid (format (splitter.headers.get? csid) payload).1
    (splitter.headerFor csid payload) (pieces splitter.maxSize payload.data)

/-- The splitter after a message that fits. -/
def afterMessage (splitter : Splitter) (csid : UInt32) (payload : Payload) : Splitter :=
  { splitter with headers := splitter.headers.insert csid (splitter.headerFor csid payload) }

/-- What a header has room for. -/
def Fits (csid : UInt32) (payload : Payload) : Prop :=
  InRange csid ∧ payload.data.length ≤ maxMessageLength

theorem split_of_fits (splitter : Splitter) (h : Fits csid payload) :
    splitter.split csid payload
      = .ok (splitter.chunksFor csid payload, splitter.afterMessage csid payload) := by
  have hc := inRange_iff.mp h.1
  have hl : ¬ maxMessageLength < payload.data.length := Nat.not_lt.mpr h.2
  simp only [split, hc, hl, if_false]
  rfl

/-- What is wrong with a message does not depend on what was sent before. -/
theorem split_of_not_fits (h : ¬ Fits csid payload) :
    ∃ error, ∀ splitter : Splitter, splitter.split csid payload = .error error := by
  by_cases hc : csid < minStreamId ∨ maxStreamId < csid
  · exact ⟨.invalidChunkStreamId csid, fun splitter => by simp only [split, hc, if_true]⟩
  · have hl : maxMessageLength < payload.data.length :=
      Nat.lt_of_not_le fun hle => h ⟨inRange_iff.mpr hc, hle⟩
    exact ⟨.messageTooLong payload.data.length,
      fun splitter => by simp only [split, hc, hl, if_false, if_true]⟩

/-- A message is taken when it fits. -/
theorem exists_split_iff : (∃ result, splitter.split csid payload = .ok result) ↔
    Fits csid payload := by
  constructor
  · rintro ⟨result, h⟩
    by_cases hf : Fits csid payload
    · exact hf
    · obtain ⟨error, hsplit⟩ := split_of_not_fits hf
      rw [hsplit splitter] at h
      cases h
  · intro h
    exact ⟨_, split_of_fits splitter h⟩

theorem length_chunksFor (splitter : Splitter) (csid : UInt32) (payload : Payload) :
    (splitter.chunksFor csid payload).length
      = max 1 ((payload.data.length + splitter.maxSize.value - 1) / splitter.maxSize.value) := by
  rw [chunksFor, length_chunks, length_pieces]

theorem chunksFor_ne_nil (splitter : Splitter) (csid : UInt32) (payload : Payload) :
    splitter.chunksFor csid payload ≠ [] := by
  have hlen := splitter.length_chunksFor csid payload
  intro hnil
  rw [hnil, List.length_nil] at hlen
  omega

/-- A reader that has the writer's last header waits for the chunks of the next message. -/
theorem awaits_chunksFor (splitter : Splitter) {more : List WireChunk} {final : Option Header}
    (h : Fits csid payload)
    (next : Awaits splitter.maxSize csid (some (splitter.headerFor csid payload)) none more final) :
    Awaits splitter.maxSize csid (splitter.headers.get? csid) none
      (wire csid payload (splitter.chunksFor csid payload) ++ more) final := by
  have hresolves := format_resolves (splitter.headers.get? csid) payload
  have hreadable : Readable (splitter.headers.get? csid) none _ csid
      (splitter.headerFor csid payload) := ⟨h.1, h.2, hresolves, .inr rfl⟩
  exact awaits_wire hreadable (Nat.zero_add _) next

end Splitter

end RtmpEndpoint.Chunk
