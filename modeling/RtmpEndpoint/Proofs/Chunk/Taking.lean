import RtmpEndpoint.Proofs.Chunk.Awaited

/-!
# What a step takes

A step that does not wait or fail takes one part of a chunk off the front of its input. The part it
takes decides what it does; the bytes after it do not matter.
-/

namespace RtmpEndpoint.Chunk

/-- A basic header says what it says whatever follows it. -/
theorem readBasicHeader?_take {bytes : Bytes} {format : Format} {csid : UInt32} {n : Nat}
    (h : readBasicHeader? bytes = some (format, csid, n)) (rest : Bytes) :
    readBasicHeader? (bytes.take n ++ rest) = some (format, csid, n) := by
  unfold readBasicHeader? at h
  split at h
  · cases h
  · next first more =>
    split at h
    · next h₀ =>
      obtain ⟨rfl, rfl, rfl⟩ : _ ∧ _ ∧ _ := by simpa using h
      simp [readBasicHeader?, h₀]
    · next h₁ =>
      obtain ⟨rfl, rfl, rfl⟩ : _ ∧ _ ∧ _ := by simpa using h
      simp [readBasicHeader?, h₁]
    · cases h
    · cases h
    · obtain ⟨rfl, rfl, rfl⟩ : _ ∧ _ ∧ _ := by simpa using h
      simp only [List.take_succ_cons, List.take_zero, List.cons_append, List.nil_append,
        readBasicHeader?]
      split <;> simp_all

namespace Current

/-- The chunk after its message header, without the extension that may follow. -/
def afterFields (current : Current) (fields : Bytes) : Current :=
  let field := UInt32.ofNat (Bytes.toNat (fields.take 3))
  if field = extendedMarker then (current.applyFields fields).announced
  else (current.applyFields fields).applyTimestamp field

/-- The chunk after its extension. -/
def afterExtension (current : Current) (bytes : Bytes) : Current :=
  if current.format = .type3 then current
  else current.applyTimestamp (UInt32.ofNat bytes.toNat)

end Current

/-- Whether the extension follows a message header. -/
def stageAfterFields (fields : Bytes) : ReadStage :=
  if UInt32.ofNat (Bytes.toNat (fields.take 3)) = extendedMarker then .extendedTimestamp
  else .completeMessage

/-- What a step reports that took `n` bytes. -/
def Progress.of (n : Nat) (next : ReadStage) : Option Payload → Progress
  | none => .advanced n next
  | some payload => .completed n payload

namespace Assembler

/-- The header that a chunk starts from, if there is one. -/
def start? (a : Assembler) (format : Format) (csid : UInt32) : Option Header :=
  if format = .type0 then some .blank else a.headers.get? csid

/-- The stage after a basic header. -/
def stageAfterBasicHeader (format : Format) (header : Header) : ReadStage :=
  if format = .type3 then afterTimestamp header else .chunkMessageHeader

/-- A step takes these bytes: the stage before it, the bytes, the stage after it, the message that
it completes and the assembler after it. -/
inductive Takes (a : Assembler) :
    ReadStage → Bytes → ReadStage → Option Payload → Assembler → Prop where
  | basicHeader {taken : Bytes} {format : Format} {csid : UInt32} {header : Header}
      (read : ∀ rest, readBasicHeader? (taken ++ rest) = some (format, csid, taken.length))
      (known : a.start? format csid = some header) :
      Takes a .firstByteBasicHeader taken (stageAfterBasicHeader format header) none
        ((a.opened format csid).reading format csid header)
  | fields {taken : Bytes} (whole : taken.length = a.current.format.headerSize) :
      Takes a .chunkMessageHeader taken (stageAfterFields taken) none
        { a with current := a.current.afterFields taken }
  | extension {taken : Bytes} (whole : taken.length = 4) :
      Takes a .extendedTimestamp taken .completeMessage none
        { a with current := a.current.afterExtension taken }
  | part {taken : Bytes} (whole : taken.length = a.bodySize)
      (short : a.received.size + taken.length ≠ a.current.header.length) :
      Takes a .completeMessage taken .firstByteBasicHeader none (a.keep taken)
  | last {taken : Bytes} (whole : taken.length = a.bodySize)
      (full : a.received.size + taken.length = a.current.header.length) :
      Takes a .completeMessage taken .firstByteBasicHeader
        (some (a.current.header.payload (a.received.bytes ++ taken))) a.finish

variable {a b : Assembler} {stage next : ReadStage} {taken input : Bytes}
  {completes : Option Payload}

theorem start?_opened (a : Assembler) (format : Format) (csid : UInt32) :
    (a.opened format csid).start? format csid = a.start? format csid := by
  rw [start?, start?, opened_headers]

theorem start?_eq {format : Format} {csid : UInt32} {header : Header} (hf : format ≠ .type0)
    (known : a.start? format csid = some header) : a.headers.get? csid = some header := by
  rwa [start?, if_neg hf] at known

/-- A whole basic header leads on if there is a header to start from. -/
theorem readBasicHeader_of_read {format : Format} {csid : UInt32} {n : Nat}
    (read : readBasicHeader? input = some (format, csid, n)) :
    a.readBasicHeader input =
      match a.start? format csid with
      | none => (.error (.noPreviousChunkOnStream csid), a.opened format csid)
      | some header => (.ok (.advanced n (stageAfterBasicHeader format header)),
          (a.opened format csid).reading format csid header) := by
  rw [← start?_opened, start?]
  simp only [readBasicHeader, read]
  rfl

/-- The step itself, in front of any bytes. -/
theorem Takes.step_eq (h : a.Takes stage taken next completes b) (rest : Bytes) :
    a.step stage (taken ++ rest) = (.ok (.of taken.length next completes), b) := by
  cases h with
  | basicHeader read known =>
    rw [step, readBasicHeader_of_read (read rest), known]
    rfl
  | fields whole =>
    rw [step_messageHeader rest taken whole, stageAfterFields, Current.afterFields]
    dsimp only
    split <;> rfl
  | extension whole => exact a.step_extendedTimestamp rest taken whole
  | part whole short =>
    rw [step_body rest whole, if_neg (by simp only [Buffer.push]; omega)]
    rfl
  | last whole full =>
    rw [step_body rest whole, if_pos (by simp only [Buffer.push]; omega)]
    rfl

/-- What a step can do. -/
theorem step_cases (a : Assembler) (stage : ReadStage) (input : Bytes) :
    a.step stage input = (.ok .needMoreData, a) ∨
      (∃ taken rest next completes b, input = taken ++ rest ∧
        a.Takes stage taken next completes b) ∨
      (∃ format csid n, stage = .firstByteBasicHeader ∧
        readBasicHeader? input = some (format, csid, n) ∧ a.start? format csid = none ∧
        a.step stage input = (.error (.noPreviousChunkOnStream csid), a.opened format csid)) ∨
      (stage.isHandshake = true ∧ a.step stage input = (.error (.unexpectedStage stage), a)) := by
  cases stage with
  | firstByteBasicHeader =>
    cases hread : readBasicHeader? input with
    | none => exact .inl (by simp only [step, readBasicHeader, hread])
    | some parts =>
      obtain ⟨format, csid, n⟩ := parts
      cases hknown : a.start? format csid with
      | none =>
        refine .inr (.inr (.inl ⟨format, csid, n, rfl, rfl, hknown, ?_⟩))
        rw [step, readBasicHeader_of_read hread, hknown]
      | some header =>
        obtain ⟨-, hn⟩ := readBasicHeader?_length hread
        refine .inr (.inl ⟨input.take n, input.drop n, _, _, _,
          (List.take_append_drop n input).symm, .basicHeader (fun rest => ?_) hknown⟩)
        rw [readBasicHeader?_take hread, List.length_take, Nat.min_eq_left hn]
  | chunkMessageHeader =>
    cases hs : input.split? a.current.format.headerSize with
    | none => exact .inl (by simp only [step, readMessageHeader, hs])
    | some parts =>
      obtain ⟨rfl, hlength⟩ := Bytes.split?_eq_some_iff.mp hs
      exact .inr (.inl ⟨_, _, _, _, _, rfl, .fields hlength⟩)
  | extendedTimestamp =>
    cases hs : input.split? 4 with
    | none => exact .inl (by simp only [step, readExtendedTimestamp, hs])
    | some parts =>
      obtain ⟨rfl, hlength⟩ := Bytes.split?_eq_some_iff.mp hs
      exact .inr (.inl ⟨_, _, _, _, _, rfl, .extension hlength⟩)
  | completeMessage =>
    cases hs : input.split? a.bodySize with
    | none => exact .inl (by simp only [step, readBody, hs])
    | some parts =>
      obtain ⟨rfl, hlength⟩ := Bytes.split?_eq_some_iff.mp hs
      by_cases hfull : a.received.size + parts.1.length = a.current.header.length
      · exact .inr (.inl ⟨_, _, _, _, _, rfl, .last hlength hfull⟩)
      · exact .inr (.inl ⟨_, _, _, _, _, rfl, .part hlength hfull⟩)
  | handshakeC0C1 | handshakeC2 => exact .inr (.inr (.inr ⟨rfl, rfl⟩))

/-- Only the last part of a message completes it, and a basic header comes next. -/
theorem Takes.next_of_some {payload : Payload} (h : a.Takes stage taken next (some payload) b) :
    next = .firstByteBasicHeader := by
  cases h
  rfl

theorem takes_of_step {progress : Progress} (h : a.step stage input = (.ok progress, b))
    (hp : progress ≠ .needMoreData) :
    ∃ taken rest next completes, input = taken ++ rest ∧
      progress = .of taken.length next completes ∧ a.Takes stage taken next completes b := by
  rcases a.step_cases stage input with hwait | ⟨taken, rest, next, completes, c, rfl, htakes⟩ |
    ⟨format, csid, n, -, -, -, hfail⟩ | ⟨-, hfail⟩
  · rw [hwait] at h
    cases h
    exact absurd rfl hp
  · rw [htakes.step_eq] at h
    cases h
    exact ⟨taken, rest, next, completes, rfl, rfl, htakes⟩
  · rw [hfail] at h
    cases h
  · rw [hfail] at h
    cases h

theorem takes_of_advanced {n : Nat} (h : a.step stage input = (.ok (.advanced n next), b)) :
    ∃ taken rest, input = taken ++ rest ∧ n = taken.length ∧ a.Takes stage taken next none b := by
  obtain ⟨taken, rest, next, completes, rfl, hp, htakes⟩ := takes_of_step h (by simp)
  cases completes with
  | none =>
    cases hp
    exact ⟨taken, rest, rfl, rfl, htakes⟩
  | some payload => cases hp

theorem takes_of_completed {n : Nat} {payload : Payload}
    (h : a.step stage input = (.ok (.completed n payload), b)) :
    ∃ taken rest, input = taken ++ rest ∧ n = taken.length ∧
      a.Takes stage taken .firstByteBasicHeader (some payload) b := by
  obtain ⟨taken, rest, next, completes, rfl, hp, htakes⟩ := takes_of_step h (by simp)
  cases completes with
  | none => cases hp
  | some payload =>
    cases hp
    obtain rfl := htakes.next_of_some
    exact ⟨taken, rest, rfl, rfl, htakes⟩

/-! ## What a step keeps -/

@[simp] theorem csid_afterFields (current : Current) (fields : Bytes) :
    (current.afterFields fields).csid = current.csid := by
  unfold Current.afterFields Current.applyFields
  dsimp only
  split <;> split <;> rfl

@[simp] theorem csid_afterExtension (current : Current) (bytes : Bytes) :
    (current.afterExtension bytes).csid = current.csid := by
  unfold Current.afterExtension
  split <;> rfl

@[simp] theorem format_afterFields (current : Current) (fields : Bytes) :
    (current.afterFields fields).format = current.format := by
  unfold Current.afterFields Current.applyFields
  dsimp only
  split <;> split <;> rfl

theorem length_afterFields (current : Current) (fields : Bytes) :
    (current.afterFields fields).header.length
      = if current.format = .type0 ∨ current.format = .type1 then
          Bytes.toNat ((fields.drop 3).take 3)
        else current.header.length := by
  obtain ⟨format, csid, header⟩ := current
  unfold Current.afterFields
  cases format <;> (dsimp only; split <;> rfl)

theorem afterExtension_eq (current : Current) (bytes : Bytes) :
    (current.afterExtension bytes).format = current.format ∧
      (current.afterExtension bytes).header.length = current.header.length := by
  unfold Current.afterExtension
  split <;> exact ⟨rfl, rfl⟩

/-- After its basic header a chunk stays on its chunk stream. -/
theorem Takes.csid_eq (h : a.Takes stage taken next completes b)
    (hs : stage ≠ .firstByteBasicHeader) : b.current.csid = a.current.csid := by
  cases h with
  | basicHeader => exact absurd rfl hs
  | fields => exact csid_afterFields ..
  | extension => exact csid_afterExtension ..
  | part | last => rfl

/-- A basic header does not end a chunk. -/
theorem Takes.next_ne (h : a.Takes .firstByteBasicHeader taken next completes b) :
    next ≠ .firstByteBasicHeader := by
  cases h with
  | basicHeader =>
    unfold stageAfterBasicHeader afterTimestamp
    split
    · split <;> simp
    · simp

/-- A chunk ends with its body. -/
theorem Takes.stage_of_ended (h : a.Takes stage taken .firstByteBasicHeader completes b) :
    stage = .completeMessage := by
  generalize hnext : ReadStage.firstByteBasicHeader = next at h
  cases h with
  | basicHeader read known => exact absurd hnext.symm (Takes.basicHeader read known).next_ne
  | fields =>
    unfold stageAfterFields at hnext
    split at hnext <;> cases hnext
  | extension => cases hnext
  | part | last => rfl

theorem pending_opened_eq (a : Assembler) (format : Format) (csid other : UInt32) :
    (a.opened format csid).pending other
      = if format ≠ .type3 ∧ csid = other then none else a.pending other := by
  unfold opened
  split
  · next hf => simp [hf]
  · next hf =>
    rw [pending, Table.get?_erase]
    by_cases hc : csid = other <;> simp [hf, hc, pending]

theorem pending_abort (a : Assembler) (csid other : UInt32) :
    (a.abort csid).pending other = if csid = other then none else a.pending other := by
  rw [pending, abort, Table.get?_erase]
  split <;> rfl

theorem pending_of_abort {csid other : UInt32} {bytes : Bytes}
    (h : (a.abort csid).pending other = some bytes) : a.pending other = some bytes := by
  rw [pending_abort] at h
  split at h
  · cases h
  · exact h

end Assembler

end RtmpEndpoint.Chunk
