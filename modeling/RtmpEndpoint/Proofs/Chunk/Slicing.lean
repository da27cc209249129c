import RtmpEndpoint.Proofs.Chunk.Collecting

/-!
# Where an assembler looks

An assembler takes parts of chunks off the front of its input. Here it reads each of them by its
places in the input, and asks for as much of a body as is missing of the message. In every state
that an assembler comes to this reads the same: no place lies outside the input, and there is never
less than nothing missing. A step takes something, or it completes a message that is empty.
-/

namespace RtmpEndpoint

namespace Bytes

variable {bytes : Bytes} {start stop size : Nat}

/-- The bytes from one place up to another, if the bytes go so far. -/
def slice? (bytes : Bytes) (start stop : Nat) : Option Bytes :=
  if start ≤ stop ∧ stop ≤ bytes.length then some (bytes.extract start stop) else none

/-- What is sliced from the front of the bytes can be sliced from the bytes. -/
theorem slice?_of_le (hstart : start ≤ stop) (hstop : stop ≤ size) (hsize : size ≤ bytes.length) :
    bytes.slice? start stop = some (((bytes.take size).drop start).take (stop - start)) := by
  rw [slice?, if_pos ⟨hstart, Nat.le_trans hstop hsize⟩, List.drop_take, List.take_take,
    Nat.min_eq_left (by omega), List.extract_eq_take_drop]

theorem slice?_front (h : size ≤ bytes.length) : bytes.slice? 0 size = some (bytes.take size) := by
  rw [slice?_of_le (Nat.zero_le size) (Nat.le_refl size) h, List.drop_zero, Nat.sub_zero,
    List.take_take, Nat.min_self]

theorem getElem?_of_lt (hstart : start < size) (hsize : size ≤ bytes.length) :
    bytes[start]? = some (((bytes.take size).drop start).headD 0) := by
  have hlt : start < bytes.length := Nat.lt_of_lt_of_le hstart hsize
  rw [List.headD_eq_head?_getD, List.head?_drop, List.getElem?_take_of_lt hstart,
    List.getElem?_eq_getElem hlt, Option.getD_some]

end Bytes

/-- How many steps a stage is good for without a byte taken. -/
def ReadStage.weight : ReadStage → Nat
  | .completeMessage => 1
  | _ => 0

namespace Chunk

/-! ## Reading by place -/

/-- Takes up the fields behind the timestamp, each one from its place. -/
def Current.fieldsAt? (current : Current) (input : Bytes) : Option Current :=
  if current.format = .type2 then some current
  else do
    let length ← input.slice? 3 6
    let tag ← input[6]?
    let header := { current.header with length := Bytes.toNat length, tag := ⟨tag⟩ }
    if current.format = .type0 then
      let streamId ← input.slice? 7 11
      pure { current with
        header := { header with streamId := UInt32.ofNat (Bytes.toNat streamId.reverse) } }
    else pure { current with header }

namespace Assembler

def messageHeaderAt? (a : Assembler) (input : Bytes) : Option (Progress × Assembler) :=
  let size := a.current.format.headerSize
  if input.length < size then some (.needMoreData, a)
  else do
    let time ← input.slice? 0 3
    let current ← a.current.fieldsAt? input
    let field := UInt32.ofNat (Bytes.toNat time)
    if field = extendedMarker then
      pure (.advanced size .extendedTimestamp, { a with current := current.announced })
    else
      pure (.advanced size .completeMessage, { a with current := current.applyTimestamp field })

def extendedTimestampAt? (a : Assembler) (input : Bytes) : Option (Progress × Assembler) :=
  if input.length < 4 then some (.needMoreData, a)
  else do
    let field ← input.slice? 0 4
    pure (.advanced 4 .completeMessage, { a with current := a.current.afterExtension field })

/-- What is missing of the message that the current chunk belongs to, if that is not less than
nothing. -/
def missing? (a : Assembler) : Option Nat :=
  if a.received.size ≤ a.current.header.length then
    some (a.current.header.length - a.received.size)
  else none

def bodyAt? (a : Assembler) (input : Bytes) : Option (Progress × Assembler) := do
  let missing ← a.missing?
  let size := min missing a.maxSize.value
  if input.length < size then some (.needMoreData, a)
  else
    let body ← input.slice? 0 size
    let received := a.received.push body
    if received.size = a.current.header.length then
      pure (.completed size (a.current.header.payload received.bytes), a.finish)
    else pure (.advanced size .firstByteBasicHeader, a.keep body)

/-- A step that reads by place. It has no result if a place is outside the input, or if more of a
message has come in than there is of it. -/
def stepAt? (a : Assembler) (stage : ReadStage) (input : Bytes) :
    Option (Except AssembleError Progress × Assembler) :=
  match stage with
  | .firstByteBasicHeader => some (a.readBasicHeader input)
  | .chunkMessageHeader => (a.messageHeaderAt? input).map fun (progress, a) => (.ok progress, a)
  | .extendedTimestamp => (a.extendedTimestampAt? input).map fun (progress, a) => (.ok progress, a)
  | .completeMessage => (a.bodyAt? input).map fun (progress, a) => (.ok progress, a)
  | .handshakeC0C1 | .handshakeC2 => some (.error (.unexpectedStage stage), a)

end Assembler

/-! ## Every place is inside -/

variable {stage next : ReadStage} {chunk : Format × UInt32} {history : History}
  {input taken : Bytes} {completes : Option Payload}

theorem Current.fieldsAt?_eq {current : Current} (hf : current.format ≠ .type3)
    (hlen : current.format.headerSize ≤ input.length) :
    current.fieldsAt? input
      = some (current.applyFields (input.take current.format.headerSize)) := by
  obtain ⟨format, csid, header⟩ := current
  cases format with
  | type0 =>
    rw [fieldsAt?, Bytes.slice?_of_le (by decide) (by decide : 6 ≤ 11) hlen,
      Bytes.slice?_of_le (by decide) (by decide : 11 ≤ 11) hlen,
      Bytes.getElem?_of_lt (by decide : 6 < 11) hlen]
    rfl
  | type1 =>
    rw [fieldsAt?, Bytes.slice?_of_le (by decide) (by decide : 6 ≤ 7) hlen,
      Bytes.getElem?_of_lt (by decide : 6 < 7) hlen]
    rfl
  | type2 => rfl
  | type3 => exact absurd rfl hf

namespace Assembler

variable {a b : Assembler}

theorem messageHeaderAt?_eq (hf : a.current.format ≠ .type3) (input : Bytes) :
    a.messageHeaderAt? input = some (a.readMessageHeader input) := by
  have hsize : 3 ≤ a.current.format.headerSize := by
    cases hformat : a.current.format with
    | type0 | type1 | type2 => decide
    | type3 => exact absurd hformat hf
  unfold messageHeaderAt? readMessageHeader
  dsimp only
  split
  · next hshort => rw [Bytes.split?_eq_none_iff.mpr hshort]
  · next hwhole =>
    have hwhole := Nat.le_of_not_lt hwhole
    have htime := Bytes.slice?_of_le (Nat.zero_le 3) hsize hwhole
    rw [Bytes.split?_of_le hwhole, htime, Current.fieldsAt?_eq hf hwhole]
    simp only [Option.bind_eq_bind, Option.bind_some, List.drop_zero, Nat.sub_zero]
    split
    · next hmarker =>
      rw [hmarker]
      rfl
    · rfl

theorem extendedTimestampAt?_eq (a : Assembler) (input : Bytes) :
    a.extendedTimestampAt? input = some (a.readExtendedTimestamp input) := by
  unfold extendedTimestampAt? readExtendedTimestamp
  split
  · next hshort => rw [Bytes.split?_eq_none_iff.mpr hshort]
  · next hwhole =>
    have hwhole := Nat.le_of_not_lt hwhole
    rw [Bytes.split?_of_le hwhole, Bytes.slice?_front hwhole]
    rfl

theorem bodyAt?_eq (hle : a.received.size ≤ a.current.header.length) (input : Bytes) :
    a.bodyAt? input = some (a.readBody input) := by
  have hsize : min (a.current.header.length - a.received.size) a.maxSize.value = a.bodySize := rfl
  unfold bodyAt? readBody
  rw [missing?, if_pos hle]
  simp only [Option.bind_eq_bind, Option.bind_some, hsize]
  split
  · next hshort => rw [Bytes.split?_eq_none_iff.mpr hshort]
  · next hwhole =>
    have hwhole := Nat.le_of_not_lt hwhole
    rw [Bytes.split?_of_le hwhole, Bytes.slice?_front hwhole]
    simp only [Option.bind_some]
    split <;> rfl

/-- An assembler that knows its history finds every place inside the input. -/
theorem stepAt?_eq (h : Sound a stage chunk history) (input : Bytes) :
    a.stepAt? stage input = some (a.step stage input) := by
  cases stage with
  | firstByteBasicHeader => rfl
  | chunkMessageHeader =>
    obtain ⟨hf, -⟩ := h.before_fields rfl
    rw [stepAt?, messageHeaderAt?_eq hf]
    rfl
  | extendedTimestamp =>
    rw [stepAt?, extendedTimestampAt?_eq]
    rfl
  | completeMessage =>
    rw [stepAt?, bodyAt?_eq (received_le h)]
    rfl
  | handshakeC0C1 | handshakeC2 => rfl

/-! ## What a step takes -/

theorem weight_le_one (stage : ReadStage) : stage.weight ≤ 1 := by cases stage <;> decide

/-- Every part of a chunk but its body is at least a byte. -/
theorem Takes.length_pos (takes : a.Takes stage taken next completes b)
    (h : Sound a stage chunk history) (hs : stage ≠ .completeMessage) : 0 < taken.length := by
  cases takes with
  | basicHeader read known => exact (readBasicHeader?_length (read [])).1
  | fields whole =>
    obtain ⟨hf, -⟩ := h.before_fields rfl
    rw [whole]
    cases hformat : a.current.format with
    | type0 | type1 | type2 => decide
    | type3 => exact absurd hformat hf
  | extension whole => omega
  | part | last => exact absurd rfl hs

theorem Takes.next_of_body (takes : a.Takes .completeMessage taken next completes b) :
    next = .firstByteBasicHeader := by
  cases takes <;> rfl

/-- Each byte that is taken makes up for two steps, and for one there need be none. -/
theorem Takes.weight_lt (takes : a.Takes stage taken next completes b)
    (h : Sound a stage chunk history) : next.weight < 2 * taken.length + stage.weight := by
  by_cases hs : stage = .completeMessage
  · subst hs
    -- The weight of the body is used up, as the stage after it weighs nothing.
    rw [takes.next_of_body]
    exact Nat.succ_pos _
  · have hpos := takes.length_pos h hs
    have hle := weight_le_one next
    omega

/-- A body is asked for in vain only of an empty message. -/
theorem bodySize_eq_zero_iff (h : Sound a .completeMessage chunk history) :
    a.bodySize = 0 ↔ a.current.header.length = 0 := by
  have hpos := a.maxSize.pos
  obtain ⟨-, hlt⟩ := h.past_fields (.inr rfl)
  have hsize : a.received.size = ((a.pending a.current.csid).getD []).length := by
    rw [← Buffer.length_bytes, bytes_received]
  rw [bodySize]
  cases hpending : a.pending a.current.csid with
  | none =>
    rw [hpending, Option.getD_none, List.length_nil] at hsize
    omega
  | some bytes =>
    have hlt := hlt bytes hpending
    rw [hpending, Option.getD_some] at hsize
    omega

/-- Nothing is taken of the body of an empty message, and of nothing else. -/
theorem Takes.eq_nil_iff (takes : a.Takes stage taken next completes b)
    (h : Sound a stage chunk history) :
    taken = [] ↔ stage = .completeMessage ∧ a.current.header.length = 0 := by
  by_cases hs : stage = .completeMessage
  · subst hs
    have hwhole : taken.length = a.bodySize := by
      cases takes with
      | part whole | last whole => exact whole
    rw [← List.length_eq_zero_iff, hwhole, bodySize_eq_zero_iff h]
    simp
  · have hpos := takes.length_pos h hs
    exact iff_of_false (List.ne_nil_of_length_pos hpos) fun hbody => hs hbody.1

/-- The body of an empty message completes it. -/
theorem Takes.completes_of_nil (takes : a.Takes stage [] next completes b)
    (h : Sound a stage chunk history) :
    ∃ payload, completes = some payload ∧ payload.data = [] := by
  obtain ⟨rfl, hempty⟩ := (takes.eq_nil_iff h).mp rfl
  have hle := received_le h
  cases takes with
  | part whole short =>
    rw [List.length_nil] at short
    omega
  | last whole full =>
    refine ⟨_, rfl, ?_⟩
    rw [← List.length_eq_zero_iff]
    simp only [Header.payload, List.append_nil, Buffer.length_bytes]
    omega

/-- The body of an empty message can be taken at any time. -/
theorem takes_nothing (h : Sound a .completeMessage chunk history)
    (hempty : a.current.header.length = 0) :
    ∃ payload b, a.Takes .completeMessage [] .firstByteBasicHeader (some payload) b := by
  have hle := received_le h
  have hfull : a.received.size + ([] : Bytes).length = a.current.header.length := by
    rw [List.length_nil]
    omega
  exact ⟨_, _, .last ((bodySize_eq_zero_iff h).mpr hempty).symm hfull⟩

/-! ## The states that an assembler comes to -/

/-- An assembler takes steps, whatever input each of them is given. Between the steps a chunk size
is set or a message dropped. -/
inductive Reached : Assembler → ReadStage → Prop where
  | fresh : Reached {} .firstByteBasicHeader
  | advanced {a b : Assembler} {stage next : ReadStage} {input : Bytes} {n : Nat}
      (h : Reached a stage) (hs : a.step stage input = (.ok (.advanced n next), b)) :
      Reached b next
  | completed {a b : Assembler} {stage : ReadStage} {input : Bytes} {n : Nat} {payload : Payload}
      (h : Reached a stage) (hs : a.step stage input = (.ok (.completed n payload), b)) :
      Reached b .firstByteBasicHeader
  | failed {a b : Assembler} {stage : ReadStage} {input : Bytes} {error : AssembleError}
      (h : Reached a stage) (hs : a.step stage input = (.error error, b)) : Reached b stage
  | resized {a b : Assembler} {stage : ReadStage} {size : Nat}
      (h : Reached a stage) (hs : a.setMaxSize size = .ok b) : Reached b stage
  | aborted {a : Assembler} {stage : ReadStage} (h : Reached a stage) (csid : UInt32) :
      Reached (a.abort csid) stage

/-- A step that fails leaves what the assembler knows. -/
theorem eq_of_step_error {error : AssembleError} (h : Sound a stage chunk history)
    (hs : a.step stage input = (.error error, b)) : b = a := by
  rcases a.step_cases stage input with hwait | ⟨taken, rest, next, completes, c, rfl, htakes⟩ |
    ⟨format, csid, n, -, -, hunknown, hfail⟩ | ⟨-, hfail⟩
  · rw [hwait] at hs
    cases hs
  · rw [htakes.step_eq] at hs
    cases hs
  · rw [hfail, opened_of_unknown h hunknown] at hs
    exact (Prod.mk.inj hs).2.symm
  · rw [hfail] at hs
    exact (Prod.mk.inj hs).2.symm

theorem Reached.sound (h : Reached a stage) : ∃ chunk history, Sound a stage chunk history := by
  induction h with
  | fresh => exact ⟨_, _, sound_new⟩
  | advanced h hs ih =>
    obtain ⟨chunk, history, hsound⟩ := ih
    obtain ⟨taken, rest, -, -, htakes⟩ := takes_of_advanced hs
    exact ⟨_, _, htakes.sound hsound⟩
  | completed h hs ih =>
    obtain ⟨chunk, history, hsound⟩ := ih
    obtain ⟨taken, rest, -, -, htakes⟩ := takes_of_completed hs
    exact ⟨_, _, htakes.sound hsound⟩
  | failed h hs ih =>
    obtain ⟨chunk, history, hsound⟩ := ih
    exact ⟨chunk, history, eq_of_step_error hsound hs ▸ hsound⟩
  | @resized a b stage size h hs ih =>
    obtain ⟨chunk, history, hsound⟩ := ih
    unfold setMaxSize at hs
    split at hs
    · cases hs
      exact ⟨chunk, history, sound_congr hsound rfl rfl fun _ => rfl⟩
    · cases hs
  | aborted h csid ih =>
    obtain ⟨chunk, history, hsound⟩ := ih
    exact ⟨chunk, _, sound_abort hsound csid⟩

end Assembler

end Chunk

end RtmpEndpoint
