import RtmpEndpoint.Proofs.Chunk.Head

/-!
# What a reader waits for

A reader keeps two things for each chunk stream: the last header and what has come in of an
unfinished message. `Awaits` says which chunks it can take from there and what they mean to it.
Chunks of other chunk streams do not matter.
-/

namespace RtmpEndpoint.Chunk

/-- The payload of a message with this header. -/
def Header.payload (header : Header) (data : Bytes) : Payload :=
  ⟨header.timestamp, header.tag, header.streamId, data⟩

/-- A chunk on its way to the reader. -/
structure WireChunk where
  csid : UInt32
  bytes : Bytes
  /-- The message that the chunk is the last one of. -/
  completes : Option Payload
  deriving DecidableEq

namespace Assembler

variable {a : Assembler} {format : Format} {csid : UInt32} {header : Header} {body rest : Bytes}

/-- The reader after a chunk that did not complete its message. -/
def keep (a : Assembler) (body : Bytes) : Assembler :=
  { a with
    headers := a.headers.insert a.current.csid a.current.header
    unfinished := a.unfinished.insert a.current.csid (a.received.push body) }

/-- The reader after a chunk that completed its message. -/
def finish (a : Assembler) : Assembler :=
  { a with
    headers := a.headers.insert a.current.csid a.current.header
    unfinished := a.unfinished.erase a.current.csid }

theorem get?_headers_keep (a : Assembler) (body : Bytes) (other : UInt32) :
    (a.keep body).headers.get? other
      = if a.current.csid = other then some a.current.header else a.headers.get? other :=
  Table.get?_insert ..

theorem get?_headers_finish (a : Assembler) (other : UInt32) :
    a.finish.headers.get? other
      = if a.current.csid = other then some a.current.header else a.headers.get? other :=
  Table.get?_insert ..

theorem pending_keep (a : Assembler) (body : Bytes) (other : UInt32) :
    (a.keep body).pending other =
      if a.current.csid = other then some (a.received.bytes ++ body) else a.pending other := by
  rw [pending, keep, Table.get?_insert]
  split
  · rw [Option.map_some, Buffer.bytes_push]
  · rfl

theorem pending_finish (a : Assembler) (other : UInt32) :
    a.finish.pending other = if a.current.csid = other then none else a.pending other := by
  rw [pending, finish, Table.get?_erase]
  split <;> rfl

theorem step_body (rest : Bytes) (hb : body.length = a.bodySize) :
    a.step .completeMessage (body ++ rest) =
      if (a.received.push body).size = a.current.header.length then
        (.ok (.completed body.length (a.current.header.payload (a.received.bytes ++ body))),
          a.finish)
      else (.ok (.advanced body.length .firstByteBasicHeader), a.keep body) := by
  have hs : (body ++ rest).split? a.bodySize = some (body, rest) :=
    Bytes.split?_eq_some_iff.mpr ⟨rfl, hb⟩
  simp only [step, readBody, hs]
  split
  · simp [hb, Header.payload, finish]
  · simp [hb, keep]

/-- The body of a chunk that leaves its message unfinished. -/
theorem follow_body_part (react : Reaction) (hb : body.length = a.maxSize.value)
    (hlt : a.received.size + body.length < a.current.header.length) :
    a.follow react .completeMessage (body ++ rest)
      = (a.keep body).follow react .firstByteBasicHeader rest := by
  have hsize : body.length = a.bodySize := by
    rw [bodySize]
    omega
  have hstep := step_body rest hsize
  rw [if_neg (by simp only [Buffer.push]; omega)] at hstep
  rw [follow_advanced react hstep, List.drop_left]

/-- The body of the chunk that completes its message. -/
theorem follow_body_last (react : Reaction) (rest : Bytes) (hb : body.length ≤ a.maxSize.value)
    (heq : a.received.size + body.length = a.current.header.length) :
    a.follow react .completeMessage (body ++ rest)
      = a.finish.resume react (some (a.current.header.payload (a.received.bytes ++ body))) rest := by
  have hsize : body.length = a.bodySize := by
    rw [bodySize]
    omega
  have hstep := step_body rest hsize
  rw [if_pos (by simp only [Buffer.push]; omega)] at hstep
  rw [follow_completed react hstep, List.drop_left]

end Assembler

/-- The chunks that a reader can take on a chunk stream with this last header and this much of an
unfinished message, up to the header that is the last one then. -/
inductive Awaits (size : Size) (csid : UInt32) :
    Option Header → Option Bytes → List WireChunk → Option Header → Prop where
  | done (previous : Option Header) : Awaits size csid previous none [] previous
  /-- A chunk that is full and leaves its message unfinished. -/
  | part {previous : Option Header} {got : Option Bytes} {format : Format} {header : Header}
      {body : Bytes} {more : List WireChunk} {final : Option Header}
      (readable : Readable previous got format csid header)
      (full : body.length = size.value)
      (short : (got.getD []).length + body.length < header.length)
      (next : Awaits size csid (some header) (some (got.getD [] ++ body)) more final) :
      Awaits size csid previous got (⟨csid, head format csid header ++ body, none⟩ :: more) final
  /-- The chunk that completes its message. -/
  | last {previous : Option Header} {got : Option Bytes} {format : Format} {header : Header}
      {body : Bytes} {more : List WireChunk} {final : Option Header}
      (readable : Readable previous got format csid header)
      (fits : body.length ≤ size.value)
      (whole : (got.getD []).length + body.length = header.length)
      (next : Awaits size csid (some header) none more final) :
      Awaits size csid previous got
        (⟨csid, head format csid header ++ body, some (header.payload (got.getD [] ++ body))⟩ :: more)
        final

/-- The chunks that a reader can take on one of its chunk streams. -/
def Assembler.Awaits (a : Assembler) (csid : UInt32) (chunks : List WireChunk)
    (final : Option Header) : Prop :=
  Chunk.Awaits a.maxSize csid (a.headers.get? csid) (a.pending csid) chunks final

namespace Assembler

/-- What a reader knows of other chunk streams than this one is left alone. -/
structure Leaves (a b : Assembler) (csid : UInt32) : Prop where
  maxSize : b.maxSize = a.maxSize
  headers : ∀ other, csid ≠ other → b.headers.get? other = a.headers.get? other
  pending : ∀ other, csid ≠ other → b.pending other = a.pending other

theorem Leaves.awaits {a b : Assembler} {csid other : UInt32} (h : a.Leaves b csid)
    (hne : csid ≠ other) (chunks : List WireChunk) (final : Option Header) :
    b.Awaits other chunks final ↔ a.Awaits other chunks final := by
  rw [Awaits, Awaits, h.maxSize, h.headers other hne, h.pending other hne]

theorem leaves_keep (a : Assembler) (body : Bytes) : a.Leaves (a.keep body) a.current.csid where
  maxSize := rfl
  headers other h := by rw [get?_headers_keep, if_neg h]
  pending other h := by rw [pending_keep, if_neg h]

theorem leaves_finish (a : Assembler) : a.Leaves a.finish a.current.csid where
  maxSize := rfl
  headers other h := by rw [get?_headers_finish, if_neg h]
  pending other h := by rw [pending_finish, if_neg h]

theorem Leaves.trans {a b c : Assembler} {csid : UInt32} (h : a.Leaves b csid)
    (h' : b.Leaves c csid) : a.Leaves c csid where
  maxSize := h'.maxSize.trans h.maxSize
  headers other hne := (h'.headers other hne).trans (h.headers other hne)
  pending other hne := (h'.pending other hne).trans (h.pending other hne)

/-- Reading a head changes nothing that is kept, and leads to the body. -/
theorem follow_to_body {a : Assembler} {format : Format} {csid : UInt32} {header : Header}
    (h : Readable (a.headers.get? csid) (a.pending csid) format csid header) :
    ∃ b : Assembler, a.Leaves b csid ∧ b.current = ⟨format, csid, header⟩ ∧
      b.received.bytes = (a.pending csid).getD [] ∧
      ∀ (react : Reaction) (rest : Bytes),
        a.follow react .firstByteBasicHeader (head format csid header ++ rest)
          = b.follow react .completeMessage rest := by
  have hpending := pending_opened h.continues
  refine ⟨(a.opened format csid).reading format csid header, ⟨?_, ?_, ?_⟩, rfl, ?_, ?_⟩
  · exact opened_maxSize a
  · intro other _
    exact congrArg (·.get? other) (opened_headers a)
  · intro other _
    exact hpending other
  · rw [bytes_received]
    exact congrArg (Option.getD · []) (hpending csid)
  · intro react rest
    exact follow_head react h

/-- A chunk that the reader waits for is read as a whole. -/
theorem follow_chunk {a : Assembler} {csid : UInt32} {chunk : WireChunk} {more : List WireChunk}
    {final : Option Header} (h : a.Awaits csid (chunk :: more) final) :
    ∃ b : Assembler, a.Leaves b csid ∧ b.Awaits csid more final ∧
      ∀ (react : Reaction) (rest : Bytes),
        a.follow react .firstByteBasicHeader (chunk.bytes ++ rest)
          = b.resume react chunk.completes rest := by
  rw [Awaits] at h
  generalize hprevious : a.headers.get? csid = previous at h
  generalize hgot : a.pending csid = got at h
  cases h with
  | @part _ _ format header body _ _ readable full short next =>
    subst hprevious hgot
    obtain ⟨b, hleaves, hcurrent, hbytes, hread⟩ := follow_to_body readable
    have hcsid : b.current.csid = csid := by rw [hcurrent]
    have hsize : b.received.size = ((a.pending csid).getD []).length := by
      rw [← hbytes, Buffer.length_bytes]
    refine ⟨b.keep body, hleaves.trans (hcsid ▸ b.leaves_keep body), ?_, ?_⟩
    · rw [Awaits, (b.leaves_keep body).maxSize, hleaves.maxSize, get?_headers_keep, pending_keep,
        if_pos hcsid, if_pos hcsid, hbytes, hcurrent]
      exact next
    · intro react rest
      rw [List.append_assoc, hread]
      exact follow_body_part react (by rw [hleaves.maxSize, full])
        (by rw [hsize, hcurrent]; exact short)
  | @last _ _ format header body _ _ readable fits whole next =>
    subst hprevious hgot
    obtain ⟨b, hleaves, hcurrent, hbytes, hread⟩ := follow_to_body readable
    have hcsid : b.current.csid = csid := by rw [hcurrent]
    have hsize : b.received.size = ((a.pending csid).getD []).length := by
      rw [← hbytes, Buffer.length_bytes]
    refine ⟨b.finish, hleaves.trans (hcsid ▸ b.leaves_finish), ?_, ?_⟩
    · rw [Awaits, b.leaves_finish.maxSize, hleaves.maxSize, get?_headers_finish, pending_finish,
        if_pos hcsid, if_pos hcsid, hcurrent]
      exact next
    · intro react rest
      have hfits : body.length ≤ b.maxSize.value := by rw [hleaves.maxSize]; exact fits
      have hwhole : b.received.size + body.length = b.current.header.length := by
        rw [hsize, hcurrent]
        exact whole
      have hlast := follow_body_last react rest hfits hwhole
      rw [List.append_assoc, hread, hlast, hbytes, hcurrent]

end Assembler

end RtmpEndpoint.Chunk
