import RtmpEndpoint.Proofs.Chunk.Splitting

/-!
# Writer and reader in agreement

Between two messages of one writer its reader has nothing unfinished and the same last headers and
chunk size. Such a reader takes the next message as a whole and is in agreement again.
-/

namespace RtmpEndpoint.Chunk

namespace Assembler

variable {a b : Assembler} {csid : UInt32} {final : Option Header}

/-- The chunks of one message are read as a whole. -/
theorem follow_wire {payload : Payload} {chunks : List Bytes} (hne : chunks ≠ [])
    (h : a.Awaits csid (wire csid payload chunks) final) :
    ∃ b : Assembler, a.Leaves b csid ∧ b.Awaits csid [] final ∧
      ∀ (react : Reaction) (rest : Bytes),
        a.follow react .firstByteBasicHeader (chunks.flatten ++ rest)
          = b.resume react (some payload) rest := by
  induction chunks generalizing a with
  | nil => exact absurd rfl hne
  | cons bytes more ih =>
    by_cases hm : more = []
    · subst hm
      rw [List.flatten_cons, List.flatten_nil, List.append_nil]
      exact follow_chunk h
    · rw [wire_cons csid payload bytes hm] at h
      obtain ⟨b, hleaves, hawaits, hread⟩ := follow_chunk h
      obtain ⟨c, hleaves', hlast, hread'⟩ := ih hm hawaits
      refine ⟨c, hleaves.trans hleaves', hlast, ?_⟩
      intro react rest
      rw [List.flatten_cons, List.append_assoc, hread, ← hread']
      rfl

/-- Where nothing more is to come, nothing is unfinished. -/
theorem Awaits.of_nil (h : a.Awaits csid [] final) :
    a.headers.get? csid = final ∧ a.pending csid = none := by
  rw [Awaits] at h
  generalize a.pending csid = got at h
  cases h
  exact ⟨rfl, rfl⟩

end Assembler

/-- The reader is where the writer is, between two messages. -/
structure InStep (splitter : Splitter) (a : Assembler) : Prop where
  maxSize : a.maxSize = splitter.maxSize
  headers : ∀ csid, a.headers.get? csid = splitter.headers.get? csid
  pending : ∀ csid, a.pending csid = none

theorem inStep_fresh : InStep {} {} where
  maxSize := rfl
  headers _ := rfl
  pending _ := rfl

variable {splitter : Splitter} {a : Assembler} {csid : UInt32} {payload : Payload}

/-- Changing the chunk size on both sides keeps them in agreement. -/
theorem InStep.resize (h : InStep splitter a) (size : Size) :
    InStep { splitter with maxSize := size } { a with maxSize := size } where
  maxSize := rfl
  headers := h.headers
  pending := h.pending

/-- A reader in agreement takes the next message and stays in agreement. -/
theorem InStep.follow_message (h : InStep splitter a) (hf : Splitter.Fits csid payload) :
    ∃ b : Assembler, InStep (splitter.afterMessage csid payload) b ∧
      ∀ (react : Reaction) (rest : Bytes),
        a.follow react .firstByteBasicHeader ((splitter.chunksFor csid payload).flatten ++ rest)
          = b.resume react (some payload) rest := by
  have hawaits : a.Awaits csid (wire csid payload (splitter.chunksFor csid payload))
      (some (splitter.headerFor csid payload)) := by
    rw [Assembler.Awaits, h.maxSize, h.headers csid, h.pending csid]
    have hall := splitter.awaits_chunksFor hf (.done _)
    rw [List.append_nil] at hall
    exact hall
  obtain ⟨b, hleaves, hlast, hread⟩ :=
    Assembler.follow_wire (splitter.chunksFor_ne_nil csid payload) hawaits
  obtain ⟨hheader, hpending⟩ := hlast.of_nil
  refine ⟨b, ⟨?_, ?_, ?_⟩, hread⟩
  · rw [hleaves.maxSize, h.maxSize]
    rfl
  · intro other
    rw [Splitter.afterMessage, Table.get?_insert]
    by_cases hc : csid = other
    · subst hc
      rw [if_pos rfl, hheader]
    · rw [if_neg hc, hleaves.headers other hc, h.headers other]
  · intro other
    by_cases hc : csid = other
    · subst hc
      exact hpending
    · rw [hleaves.pending other hc, h.pending other]

end RtmpEndpoint.Chunk
