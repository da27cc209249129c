import RtmpEndpoint.Chunk.Assembler
import RtmpEndpoint.Handshake

/-!
# Reading from a prefix

A reader that has only the front of its input either finds that something is missing, and leaves
everything as it was, or does what it would do with all of the input.
-/

namespace RtmpEndpoint

/-! ## The handshake -/

namespace Handshake

theorem receiveC0C1_front (h : Handshake) (bytes more : Bytes) :
    h.receiveC0C1 bytes = .ok none ∨ h.receiveC0C1 bytes = h.receiveC0C1 (bytes ++ more) := by
  unfold receiveC0C1
  split
  · exact .inr rfl
  · cases hs : bytes.split? c0c1Size with
    | none => exact .inl rfl
    | some parts => exact .inr (by rw [Bytes.split?_append hs])

theorem receiveC2_front (h : Handshake) (bytes more : Bytes) :
    h.receiveC2 bytes = .ok none ∨ h.receiveC2 bytes = h.receiveC2 (bytes ++ more) := by
  unfold receiveC2
  split
  · exact .inr rfl
  · cases hs : bytes.split? packetSize with
    | none => exact .inl rfl
    | some parts => exact .inr (by rw [Bytes.split?_append hs])

end Handshake

/-! ## Chunks -/

namespace Chunk

theorem readBasicHeader?_front (bytes more : Bytes) :
    readBasicHeader? bytes = none
      ∨ readBasicHeader? bytes = readBasicHeader? (bytes ++ more) := by
  match bytes with
  | [] => exact .inl rfl
  | [first] =>
    by_cases h₀ : first.toNat % 64 = 0
    · exact .inl (by simp [readBasicHeader?, h₀])
    · by_cases h₁ : first.toNat % 64 = 1
      · exact .inl (by simp [readBasicHeader?, h₁])
      · right
        simp only [List.cons_append, readBasicHeader?]
        split <;> split <;> simp_all
  | [first, second] =>
    by_cases h₁ : first.toNat % 64 = 1
    · exact .inl (by simp [readBasicHeader?, h₁])
    · right
      simp only [List.cons_append, readBasicHeader?]
      split <;> split <;> simp_all
  | first :: second :: third :: rest =>
    right
    simp only [List.cons_append, readBasicHeader?]
    split <;> split <;> simp_all

namespace Assembler

theorem readBasicHeader_front (a : Assembler) (bytes more : Bytes) :
    a.readBasicHeader bytes = (.ok .needMoreData, a)
      ∨ a.readBasicHeader bytes = a.readBasicHeader (bytes ++ more) := by
  rcases readBasicHeader?_front bytes more with h | h
  · exact .inl (by rw [readBasicHeader, h])
  · exact .inr (by rw [readBasicHeader, readBasicHeader, h])

theorem readMessageHeader_front (a : Assembler) (bytes more : Bytes) :
    a.readMessageHeader bytes = (.needMoreData, a)
      ∨ a.readMessageHeader bytes = a.readMessageHeader (bytes ++ more) := by
  cases hs : bytes.split? a.current.format.headerSize with
  | none => exact .inl (by simp only [readMessageHeader, hs])
  | some parts => exact .inr (by simp only [readMessageHeader, hs, Bytes.split?_append hs])

theorem readExtendedTimestamp_front (a : Assembler) (bytes more : Bytes) :
    a.readExtendedTimestamp bytes = (.needMoreData, a)
      ∨ a.readExtendedTimestamp bytes = a.readExtendedTimestamp (bytes ++ more) := by
  cases hs : bytes.split? 4 with
  | none => exact .inl (by simp only [readExtendedTimestamp, hs])
  | some parts => exact .inr (by simp only [readExtendedTimestamp, hs, Bytes.split?_append hs])

theorem readBody_front (a : Assembler) (bytes more : Bytes) :
    a.readBody bytes = (.needMoreData, a) ∨ a.readBody bytes = a.readBody (bytes ++ more) := by
  cases hs : bytes.split? a.bodySize with
  | none => exact .inl (by simp only [readBody, hs])
  | some parts => exact .inr (by simp only [readBody, hs, Bytes.split?_append hs])

/-- A step on a prefix waits and changes nothing, or is the step on all of the input. -/
theorem step_front (a : Assembler) (stage : ReadStage) (bytes more : Bytes) :
    a.step stage bytes = (.ok .needMoreData, a)
      ∨ a.step stage bytes = a.step stage (bytes ++ more) := by
  cases stage with
  | firstByteBasicHeader => exact a.readBasicHeader_front bytes more
  | chunkMessageHeader =>
    rcases a.readMessageHeader_front bytes more with h | h
    · exact .inl (by simp only [step, h])
    · exact .inr (by simp only [step, h])
  | extendedTimestamp =>
    rcases a.readExtendedTimestamp_front bytes more with h | h
    · exact .inl (by simp only [step, h])
    · exact .inr (by simp only [step, h])
  | completeMessage =>
    rcases a.readBody_front bytes more with h | h
    · exact .inl (by simp only [step, h])
    · exact .inr (by simp only [step, h])
  | handshakeC0C1 | handshakeC2 => exact .inr rfl

/-- A step that waits changes nothing. -/
theorem step_needMoreData {a b : Assembler} {stage : ReadStage} {bytes : Bytes}
    (h : a.step stage bytes = (.ok .needMoreData, b)) : b = a := by
  cases stage with
  | firstByteBasicHeader =>
    simp only [step, readBasicHeader] at h
    split at h
    · exact (Prod.mk.inj h).2.symm
    · split at h <;> cases (Prod.mk.inj h).1
  | chunkMessageHeader =>
    simp only [step, readMessageHeader] at h
    split at h
    · exact (Prod.mk.inj h).2.symm
    · split at h <;> cases (Prod.mk.inj h).1
  | extendedTimestamp =>
    simp only [step, readExtendedTimestamp] at h
    split at h
    · exact (Prod.mk.inj h).2.symm
    · cases (Prod.mk.inj h).1
  | completeMessage =>
    simp only [step, readBody] at h
    split at h
    · exact (Prod.mk.inj h).2.symm
    · split at h <;> cases (Prod.mk.inj h).1
  | handshakeC0C1 | handshakeC2 => cases (Prod.mk.inj h).1

end Assembler

end Chunk

end RtmpEndpoint
